import Shading.Proofs.Place.Statement

/-! Declarations stand where they are read. -/
namespace Shading

/-- What is known stays known where functions are declared and defined. A function whose name is
taken is not bound. -/
class Site.AllowsGlobals (site : Site) : Prop extends site.AllowsLocals where
  element : ∀ {es e}, e.LiesIn site → site.follows es → site.follows (e :: es)
  declare : ∀ {c : Context} {f : Function}, f.intrinsic = none → site.holds c.scopes c.functions →
    Check.sameSignature? c f.name f.parameters = none →
      site.holds ((c.scopes.insert? f.name (.functions [c.functions.next])).getD c.scopes) (c.functions.push f)
  define : ∀ {scopes functions n}, site.holds scopes functions →
    site.holds scopes (functions.modify n fun f => { f with defined := true })

variable {site : Site}

def Field.Within (source : String) (f : Field Ty) : Prop := f.span.Within source ∧ f.modifiers.Within source

namespace Check

variable {name : String} {span : Span} {ty returns : Ty} {m : Modifiers} {number : Nat}
    {parameters : List Parameter} {c : Context}

lemma gives_declareStruct {fields : List (Field Ty)} {block : Bool}
    (hfields : ∀ f ∈ fields, f.Within site.source) :
    Gives site (declareStruct name fields block) fun _ => True := by
  refine .get_bind fun c _ => .bind (.modify fun c' hc' => ?_) fun _ _ => .pure trivial
  refine ⟨hc'.reports, hc'.calls, fun n ty hty => ?_, hc'.variables, hc'.functions, hc'.names⟩
  obtain hty | rfl := Arena.get?_of_push hty
  · exact hc'.types n ty hty
  · rintro _ ⟨⟩
    exact hfields

lemma gives_checkUnsized {buffer : Bool} {fields : List (Field Ty)}
    (hfields : ∀ f ∈ fields, f.Within site.source) :
    Gives site (checkUnsized buffer fields) fun _ => True := by
  induction fields with
  | nil => exact .pure trivial
  | cons f fs ih =>
    obtain ⟨hf, hfs⟩ := List.forall_mem_cons.mp hfields
    exact .get_bind fun _ _ => .bind (.reportIf hf.1) fun _ _ => ih hfs

lemma declareFunction_match : declareFunction m returns name span parameters c =
    (match sameSignature? c name parameters with
    | some number => redeclare number returns name span parameters
    | none => do
      modify fun c' => { c' with functions := c'.functions.push {
        name, returns, parameters, modifiers := m, span, defined := false, ordinal := c.functions.items.size } }
      if ← bindName name (.functions [c.functions.next]) span then
        note (.functionDeclared name c.functions.items.size)
        return some c.functions.next
      else return none : Check (Option Nat)) c := rfl

lemma declareFunction_eq_redeclare (hsame : sameSignature? c name parameters = some number) :
    declareFunction m returns name span parameters c = redeclare number returns name span parameters c := by
  rw [declareFunction_match, hsame]

/-- A function is entered before its name is bound, whether or not the name is free. -/
lemma declareFunction_eq (hnew : sameSignature? c name parameters = none) :
    let f : Function :=
      { name, returns, parameters, modifiers := m, span, defined := false, ordinal := c.functions.items.size }
    declareFunction m returns name span parameters c =
      match c.scopes.insert? name (.functions [c.functions.next]) with
      | some scopes => (some c.functions.next,
          (note (.functionDeclared name f.ordinal) { c with functions := c.functions.push f, scopes }).2)
      | none => (none, (report (.duplicateSymbol name) span { c with functions := c.functions.push f }).2) := by
  intro f
  rw [declareFunction_match, hnew]
  change (if (bindName name (.functions [c.functions.next]) span
    { c with functions := c.functions.push f }).1 = true then do
      note (.functionDeclared name f.ordinal)
      return some c.functions.next
    else return none : Check (Option Nat)) (bindName name (.functions [c.functions.next]) span
      { c with functions := c.functions.push f }).2 = _
  rw [bindName_eq]
  cases c.scopes.insert? name (.functions [c.functions.next]) <;> rfl

lemma gives_redeclare (hspan : span.Within site.source) :
    Gives site (redeclare number returns name span parameters) fun _ => True := by
  refine .get_bind fun c _ => .ite (fun _ => ?_) fun _ => .ite (fun _ => ?_) fun _ => ?_
  · exact .bind (.report hspan) fun _ _ => .pure trivial
  · exact .bind (.report hspan) fun _ _ => .pure trivial
  · exact .bind (.reportIf hspan) fun _ _ => .pure trivial

lemma gives_declareFunction [hsite : site.AllowsGlobals] (hm : m.Within site.source)
    (hspan : span.Within site.source)
    (hparameters : ∀ p ∈ parameters, p.modifiers.Within site.source) :
    Gives site (declareFunction m returns name span parameters) fun _ => True := by
  intro c hc
  cases hsame : sameSignature? c name parameters with
  | some n =>
    rw [declareFunction_eq_redeclare hsame]
    exact gives_redeclare hspan c hc
  | none =>
    rw [declareFunction_eq hsame]
    let f : Function :=
      { name, returns, parameters, modifiers := m, span, defined := false, ordinal := c.functions.items.size }
    have hnames := hsite.declare (f := f) rfl hc.names hsame
    have hfunctions : ∀ g ∈ (c.functions.push f).items, g.Within site.source := fun g hg => by
      obtain hg | rfl := Array.mem_push.mp hg
      · exact hc.functions g hg
      · exact ⟨hspan, hm, hparameters⟩
    have hplaced {scopes : Scopes} (hnames : site.holds scopes (c.functions.push f)) :
        Context.Placed site { c with functions := c.functions.push f, scopes } :=
      ⟨hc.reports, hc.calls, hc.types, hc.variables, hfunctions, hnames⟩
    dsimp only [f] at hnames
    split <;> rename_i hinsert <;> rw [hinsert] at hnames
    · refine ⟨(Gives.note (fun r hr => ?_) _ (hplaced hnames)).1, trivial⟩
      cases hr
    · exact ⟨(Gives.report hspan _ (hplaced hnames)).1, trivial⟩

lemma gives_markDefined
    (hdefine : ∀ {scopes functions n}, site.holds scopes functions →
    site.holds scopes (functions.modify n fun f => { f with defined := true }))
    (hspan : span.Within site.source) : Gives site (markDefined number name span) fun _ => True := by
  refine .get_bind fun c _ => .ite (fun _ => .bind (.report hspan) fun _ _ => .pure trivial)
    fun _ => .bind (.modify fun c hc => ?_) fun _ _ => .pure trivial
  refine ⟨hc.reports, hc.calls, hc.types, hc.variables, fun f hf => ?_, hdefine hc.names⟩
  unfold Arena.modify at hf
  split at hf
  · exact hc.functions f hf
  · obtain ⟨i, hi, rfl⟩ := Array.mem_iff_getElem.mp hf
    have hi : i < c.functions.items.size := by simpa using hi
    have hold := hc.functions c.functions.items[i] (Array.getElem_mem _)
    rw [Array.getElem_modify]
    split <;> exact hold

end Check

namespace Grammar

variable {s s0 t u : State} {parts : Parts} [hparts : parts.Places] {w : Word} {m : Modifiers}
    {ty : Ty} {start : Nat}

lemma reads_addElement_eq {e : Element} (he : site.follows s.elements → site.follows (e :: s.elements)) :
    Reads site s (addElement e) fun _ t => t = { s with elements := e :: s.elements } := by
  refine fun hs => ⟨⟨hs.context, hs.line, hs.valid, hs.lastEnd, he hs.follows⟩, ?_⟩
  rintro _ _ ⟨⟩
  exact ⟨⟨le_rfl, le_rfl⟩, rfl⟩

lemma reads_addElement [hsite : site.AllowsGlobals] {e : Element} (he : e.LiesIn site) :
    Reads site s (addElement e) fun _ _ => True :=
  .weaken (reads_addElement_eq (hsite.element he)) fun _ _ _ _ _ => trivial

variable {owner : String} {n : Nat}

lemma reads_fieldDeclarators {found : List (Field Ty)} (hm : m.Within site.source)
    (hfound : ∀ f ∈ found, f.Within site.source) :
    Reads site s (fieldDeclarators parts owner m ty n found) fun r _ => ∀ f ∈ r, f.Within site.source := by
  induction n generalizing s found with
  | zero => exact reads_exhausted
  | succ n ih =>
    refine .bind reads_expect fun name _ _ _ hname => .bind (reads_arraySuffixes hname.within) fun _ _ _ _ _ => ?_
    refine .bind (reads_lift (.reportIf hname.within)) fun _ _ _ _ _ =>
      .bind (reads_lift (.reportIf hname.within)) fun _ _ _ _ _ => ?_
    have hall (ty : Ty) : ∀ f ∈ ⟨name.text, ty, m, name.span⟩ :: found, f.Within site.source :=
      List.forall_mem_cons.mpr ⟨⟨hname.within, hm⟩, hfound⟩
    exact .bind reads_acceptMark fun _ _ _ _ _ => .ite (fun _ => ih (hall _)) fun _ => .pure (hall _)

lemma reads_fieldDeclarations {found : List (Field Ty)} (hfound : ∀ f ∈ found, f.Within site.source) :
    Reads site s (fieldDeclarations parts owner n found) fun r _ => ∀ f ∈ r, f.Within site.source := by
  induction n generalizing s found with
  | zero => exact reads_exhausted
  | succ n ih =>
    refine .bind reads_acceptMark fun _ _ _ _ _ =>
      .ite (fun _ => .pure fun f hf => hfound f (List.mem_reverse.mp hf)) fun _ => ?_
    refine .bind reads_modifiers fun m _ _ _ hm => .bind reads_typeName fun _ _ _ _ _ => ?_
    refine .bind (reads_fieldDeclarators hm hfound) fun _ _ _ _ hfound =>
      .bind reads_expect fun _ _ _ _ _ => ih hfound

lemma reads_fields {buffer : Bool} :
    Reads site s (fields parts owner buffer) fun r _ => ∀ f ∈ r, f.Within site.source :=
  .bind (reads_fieldDeclarations (List.forall_mem_nil _)) fun _ _ _ _ hfields =>
    .bind (reads_lift (Check.gives_checkUnsized hfields)) fun _ _ _ _ _ => .pure hfields

/-! ### Global variables, structs and blocks -/

/-- The span of a declaration that starts before a word and goes on to what has been looked at. -/
lemma within_declaration (hw : s.Takes site w t) (ht : t.Reaches u) (hu : u.Placed site)
    (hstart : start ≤ w.span.start)
    (hvalid : (⟨start⟩ : String.Pos.Raw).IsValid site.source) : (⟨start, u.lastEnd⟩ : Span).Within site.source :=
  ⟨hstart.trans (hw.within.ordered.trans (hw.stop.le.trans ht.lastEnd)), hvalid, hu.valid⟩

lemma reads_globalDeclarators [site.AllowsGlobals] (hm : m.Within site.source) (hw : s0.Takes site w t)
    (ht : t.Reaches s) (hstart : start ≤ w.span.start) (hvalid : (⟨start⟩ : String.Pos.Raw).IsValid site.source) :
    Reads site s (globalDeclarators parts start m ty n w) fun _ _ => True := by
  induction n generalizing s s0 t w with
  | zero => exact reads_exhausted
  | succ n ih =>
    refine .bind (reads_arraySuffixes hw.within) fun ty t1 _ h1 _ => .bind reads_acceptMark fun b t2 _ h2 _ => ?_
    refine .ite_bind reads_initializer fun e t3 _ h3 he => ?_
    refine .bind (reads_lift (Check.gives_declareVariable hm hw.within he)) fun r t4 _ h4 hr => ?_
    refine .bind reads_spanFrom fun span t5 ht5 _ hspan => ?_
    obtain ⟨rfl, rfl⟩ := hspan
    have hreaches := ht.trans (h1.trans (h2.trans (h3.trans h4)))
    have helement : (Element.global r.1 r.2 ⟨start, t5.lastEnd⟩).LiesIn site := by
      refine ⟨within_declaration hw hreaches ht5 hstart hvalid, fun i hi =>
        (hr i hi).mono (Span.contains_iff.mpr ⟨?_, ?_⟩)⟩
      · exact hstart.trans (hw.start.le.trans (hw.reaches.trans (ht.trans (h1.trans h2))).front)
      · exact (min_le_left ..).trans h4.lastEnd
    refine .bind (reads_addElement helement) fun _ t6 _ h6 _ => .bind reads_acceptMark fun comma t7 _ h7 _ => ?_
    refine .ite (fun _ => .bind reads_expect fun name t8 _ _ hname => ih hname (.refl _) ?_) fun _ => .pure trivial
    exact hstart.trans (hw.start.le.trans ((hw.reaches.trans
      (hreaches.trans (h6.trans h7))).front.trans hname.start.ge))

lemma reads_globalVariables [site.AllowsGlobals] (hm : m.Within site.source)
    (hw : s0.Takes site w t) (ht : t.Reaches s)
    (hstart : start ≤ w.span.start) (hvalid : (⟨start⟩ : String.Pos.Raw).IsValid site.source) :
    Reads site s (globalVariables parts start m ty w) fun _ _ => True := by
  refine .bind (reads_lift (.reportIf hm)) fun _ _ _ h _ =>
    .bind (reads_globalDeclarators hm hw (ht.trans h) hstart hvalid) ?_
  exact fun _ _ _ _ _ => .bind reads_expect fun _ _ _ _ _ => .pure trivial

lemma reads_structDeclaration [site.AllowsGlobals] (hm : m.Within site.source) (hs : start ≤ s.front.span.start)
    (hvalid : (⟨start⟩ : String.Pos.Raw).IsValid site.source) :
    Reads site s (structDeclaration parts start m) fun _ _ => True := by
  refine .bind reads_expect fun keyword t1 _ h1 hkeyword => .bind reads_expect fun name t2 _ h2 hname => ?_
  refine .bind reads_expect fun _ t3 _ h3 _ => .bind reads_fields fun fields t4 _ h4 hfields => ?_
  refine .bind (reads_lift (.reportIf hname.within)) fun _ t5 _ h5 _ => ?_
  refine .bind (reads_lift (Check.gives_declareStruct hfields)) fun ty t6 _ h6 _ => ?_
  refine .bind (reads_lift (.reportIf hname.within)) fun _ t7 _ h7 _ => ?_
  refine .bind (reads_lift (Check.gives_bindName nofun hname.within)) fun _ t8 _ h8 _ => ?_
  refine .bind reads_spanFrom fun span t9 ht9 _ hspan => ?_
  obtain ⟨rfl, rfl⟩ := hspan
  have hafter := h2.trans (h3.trans (h4.trans (h5.trans (h6.trans (h7.trans h8)))))
  have hspan := within_declaration hkeyword hafter ht9 (hs.trans hkeyword.start.ge) hvalid
  refine .bind (reads_addElement hspan) fun _ t10 _ h10 _ =>
    .bind reads_looksAt fun b t11 _ h11 _ => .ite (fun _ => ?_) fun _ => ?_
  · refine .bind reads_expect fun w t12 _ _ hw => reads_globalVariables hm hw (.refl _) ?_ hvalid
    exact hs.trans ((h1.trans (hafter.trans (h10.trans h11))).front.trans hw.start.ge)
  · exact .bind (reads_lift (.reportIf hm)) fun _ _ _ _ _ => .bind reads_expect fun _ _ _ _ _ => .pure trivial

lemma gives_bindFields [site.AllowsLocals] {block : Nat} {fields : List (Field Ty)}
    (hfields : ∀ f ∈ fields, f.Within site.source) :
    Check.Gives site (bindFields block fields) fun _ => True := by
  refine .forM fun x hx => .bind (Check.gives_bindName nofun ?_) fun _ _ => .pure trivial
  exact (hfields x.1 (List.fst_mem_of_mem_zipIdx hx)).1

lemma reads_blockInstance? : Reads site s (blockInstance? parts ty) fun r _ =>
    ∀ w ∈ r, w.1.span.Within site.source := by
  refine .bind reads_looksAt fun b t1 _ _ _ =>
    .ite (fun _ => .bind reads_expect fun w t2 _ _ hw => ?_) fun _ => .pure nofun
  refine .bind (reads_arraySuffixes hw.within) fun _ _ _ _ _ => .pure ?_
  rintro _ ⟨⟩
  exact hw.within

lemma gives_declareBlock [site.AllowsLocals] {fields : List (Field Ty)} {named : Option (Word × Ty)}
    (hm : m.Within site.source)
    (hw : w.span.Within site.source) (hfields : ∀ f ∈ fields, f.Within site.source)
    (hnamed : ∀ x ∈ named, x.1.span.Within site.source) :
    Check.Gives site (declareBlock m w ty fields named) fun _ => True := by
  unfold declareBlock
  split
  · have hx := hnamed _ rfl
    exact .bind (Check.gives_addVariable ⟨hx, hm⟩) fun _ _ =>
      .bind (Check.gives_bindName (by simp) hx) fun _ _ => .pure trivial
  · exact .bind (Check.gives_addVariable ⟨hw, hm⟩) fun _ _ =>
      .bind (gives_bindFields hfields) fun _ _ => .pure trivial

lemma reads_interfaceBlock [site.AllowsGlobals] (hm : m.Within site.source) (hw : s0.Takes site w t)
    (ht : t.Reaches s)
    (hstart : start ≤ w.span.start) (hvalid : (⟨start⟩ : String.Pos.Raw).IsValid site.source) :
    Reads site s (interfaceBlock parts start m w) fun _ _ => True := by
  refine .bind (reads_lift (.reportIf hw.within)) fun _ t1 _ h1 _ => .bind reads_expect fun _ t2 _ h2 _ => ?_
  refine .bind reads_fields fun fields t3 _ h3 hfields =>
    .bind (reads_lift (.reportIf hw.within)) fun _ t4 _ h4 _ => ?_
  refine .bind (reads_lift (Check.gives_declareStruct hfields)) fun ty t5 _ h5 _ => ?_
  refine .bind reads_blockInstance? fun named t6 _ h6 hnamed => .bind reads_expect fun _ t7 _ h7 _ => ?_
  refine .bind (reads_lift (gives_declareBlock hm hw.within hfields hnamed)) fun n t8 _ h8 _ => ?_
  refine .bind reads_spanFrom fun span t9 ht9 _ hspan => reads_addElement ?_
  obtain ⟨rfl, rfl⟩ := hspan
  have hafter := h1.trans (h2.trans (h3.trans (h4.trans (h5.trans (h6.trans (h7.trans h8))))))
  exact within_declaration hw (ht.trans hafter) ht9 hstart hvalid

/-! ### Functions -/

/-- A parameter and its modifiers stand in the source. -/
def NamedParameter.Within (source : String) (p : NamedParameter) : Prop := p.span.Within source ∧
    p.parameter.modifiers.Within source

lemma gives_checkParameter {span : Span} (hm : m.Within site.source) (hspan : span.Within site.source) :
    Check.Gives site (checkParameter ty m span) fun _ => True :=
  .bind (.reportIf hm) fun _ _ => .bind (.reportIf hm) fun _ _ => .get_bind fun _ _ => .reportIf hspan

lemma reads_parameterType {name : Option Word} (hname : ∀ w ∈ name, w.span.Within site.source) :
    Reads site s (parameterType parts ty name) fun _ _ => True := by
  unfold parameterType
  split
  · exact reads_arraySuffixes (hname _ rfl)
  · exact .pure trivial

lemma reads_parameter? {first : Bool} : Reads site s (parameter? parts first) fun p _ =>
    ∀ x ∈ p, x.Within site.source := by
  refine .bind reads_peek fun w t1 _ h1 ⟨hw, hfront, _, hsees⟩ => ?_
  refine .bind reads_modifiers fun m t2 _ h2 hm => ?_
  refine .bind reads_typeName fun base t3 _ h3 _ => .bind reads_accept? fun name t4 _ h4 hname => ?_
  refine .bind (reads_parameterType fun w hw => (hname.1 w hw).within) fun ty t5 _ h5 _ => ?_
  refine .bind reads_spanFrom fun span t6 ht6 _ hspan => ?_
  obtain ⟨rfl, rfl⟩ := hspan
  have hspan := hsees.within_to hw hfront (h2.trans (h3.trans (h4.trans h5))) ht6
  have hlone : Reads site t6 (if ty.isVoid &&
    first && name.isNone then acceptMark .rparen else pure false) fun _ _ => True :=
    .ite (fun _ => .weaken reads_acceptMark fun _ _ _ _ _ => trivial) fun _ => .pure trivial
  refine .ite_bind hlone fun lone t7 _ _ _ => .ite (fun _ => .pure (by simp)) fun _ => ?_
  refine .bind (reads_lift (.reportIf hspan)) fun _ _ _ _ _ =>
    .bind (reads_lift (gives_checkParameter hm hspan)) fun _ _ _ _ _ => .pure ?_
  rintro _ ⟨⟩
  exact ⟨hspan, hm⟩

lemma reads_parametersFrom {found : List NamedParameter} (hfound : ∀ p ∈ found, p.Within site.source) :
    Reads site s (parametersFrom parts n found) fun ps _ => ∀ p ∈ ps, p.Within site.source := by
  induction n generalizing s found with
  | zero => exact reads_exhausted
  | succ n ih =>
    refine .bind reads_parameter? fun p t _ _ hp => ?_
    split
    · exact .pure (List.forall_mem_nil _)
    have hall := List.forall_mem_cons.mpr ⟨hp _ rfl, hfound⟩
    refine .bind reads_next fun w _ _ _ hw => .ite (fun _ => ih hall) fun _ =>
      .ite (fun _ => .pure ?_) fun _ => reads_unexpected hw.1.within
    exact fun p hp => hall p (List.mem_reverse.mp hp)

lemma reads_parameters : Reads site s (parameters parts) fun ps _ => ∀ p ∈ ps, p.Within site.source :=
  .bind reads_acceptMark fun _ _ _ _ _ => .ite (fun _ => .pure (List.forall_mem_nil _)) fun _ =>
    reads_parametersFrom (List.forall_mem_nil _)

lemma gives_declareParameter [site.AllowsLocals] {p : NamedParameter} (hp : p.Within site.source) :
    Check.Gives site (declareParameter p) fun _ => True := by
  refine .bind (Check.gives_addVariable hp) fun n _ => ?_
  split
  · exact .bind (Check.gives_bindName (by simp) hp.1) fun _ _ => .pure trivial
  · exact .pure trivial

variable {ps : List NamedParameter}

lemma reads_functionScope [site.AllowsLocals] {returns : Option Ty} (hps : ∀ p ∈ ps, p.Within site.source)
    (hw : s0.Takes site w t) (ht : t.Reaches s) :
    Reads site s (functionScope parts returns ps w) fun r t => IsRead site s0 r.2 t := by
  refine .bind (reads_lift Check.gives_enterScope) fun _ t1 _ h1 _ => ?_
  have hdeclared : Check.Gives site (ps.mapM declareParameter) fun ns => ∀ n ∈ ns, True :=
    .mapM fun p hp => gives_declareParameter (hps p hp)
  refine .bind (reads_lift hdeclared) fun _ t2 _ h2 _ =>
    .bind (reads_blockBody hw (ht.trans (h1.trans h2))) fun body t3 _ _ hbody => ?_
  exact .bind (reads_lift_isRead hbody Check.gives_leaveScope) fun _ _ _ _ hbody => .pure hbody

variable {returns : Ty}

lemma reads_definition [site.AllowsLocals] {number : Nat} {name : Word}
    (hname : name.span.Within site.source) (hps : ∀ p ∈ ps, p.Within site.source)
    (hw : s0.Takes site w t) (ht : t.Reaches s)
    (hstart : start ≤ s0.front.span.start) (hvalid : (⟨start⟩ : String.Pos.Raw).IsValid site.source) :
    Reads site s (definition parts start number returns name ps w) fun e _ => e.LiesIn site := by
  refine .bind (reads_functionScope hps hw ht) fun r t1 _ h1 hbody => ?_
  refine .bind (reads_lift_isRead hbody (.reportIf hname)) fun _ t2 _ h2 hbody =>
    .bind reads_spanFrom fun span t3 ht3 _ hspan => .pure ?_
  obtain ⟨rfl, rfl⟩ := hspan
  refine ⟨within_declaration hw (ht.trans (h1.trans h2)) ht3 (hstart.trans hw.start.ge) hvalid, hbody.liesIn, ?_⟩
  exact Span.contains_iff.mpr ⟨hstart.trans hbody.start, hbody.stop.le⟩

lemma reads_functionBody [hsite : site.AllowsGlobals] {number : Option Nat} {name : Word}
    (hname : name.span.Within site.source) (hps : ∀ p ∈ ps, p.Within site.source) (hw : s0.Takes site w s)
    (hstart : start ≤ s0.front.span.start) (hvalid : (⟨start⟩ : String.Pos.Raw).IsValid site.source) :
    Reads site s (functionBody parts start number returns name ps w) fun _ _ => True := by
  unfold functionBody
  split
  · refine .bind (reads_lift (Check.gives_markDefined hsite.define hname)) fun _ t1 _ h1 _ => ?_
    refine .bind (reads_definition hname hps hw h1 hstart hvalid) fun e t2 _ _ he => ?_
    exact .ite (fun _ => reads_addElement he) fun _ => .pure trivial
  · refine .bind (reads_functionScope hps hw (.refl s)) fun r t1 _ _ _ => ?_
    exact reads_lift (.reportIf hname)

lemma reads_functionDeclaration [site.AllowsGlobals] (hm : m.Within site.source) (hw : w.span.Within site.source)
    (hstart : start ≤ s.front.span.start) (hvalid : (⟨start⟩ : String.Pos.Raw).IsValid site.source) :
    Reads site s (functionDeclaration parts start m returns w) fun _ _ => True := by
  refine .bind reads_expect fun _ t1 _ h1 _ => .bind reads_parameters fun ps t2 _ h2 hps => ?_
  refine .bind (reads_lift (.reportIf hm)) fun _ t3 _ h3 _ => .get_bind fun _ =>
    .bind (reads_lift (.reportIf hw)) fun _ t4 _ h4 _ => ?_
  have hparameters : ∀ p ∈ ps.map (·.parameter), p.modifiers.Within site.source := by
    intro p hp
    obtain ⟨x, hx, rfl⟩ := List.mem_map.mp hp
    exact (hps x hx).2
  refine .bind (reads_lift (Check.gives_declareFunction hm hw hparameters)) fun number t5 _ h5 _ => ?_
  refine .bind reads_next fun opening t6 _ _ ⟨hopening, _⟩ => ?_
  have hbefore : start ≤ t5.front.span.start := hstart.trans (h1.trans (h2.trans (h3.trans (h4.trans h5)))).front
  split
  · split
    · exact reads_addElement ⟨hbefore.trans (hopening.start.ge.trans hopening.within.ordered),
        hvalid, hopening.within.stop⟩
    · exact .pure trivial
  · exact reads_functionBody hw hps hopening hbefore hvalid
  · exact reads_unexpected hopening.within

/-! ### Programs -/

lemma reads_globalDeclaration [site.AllowsGlobals] : Reads site s (globalDeclaration parts) fun _ _ => True := by
  refine .bind reads_peek fun first t1 _ h1 ⟨hfirst, hfront, _, hsees⟩ => ?_
  refine .bind reads_modifiers fun m t2 _ h2 hm => ?_
  have hstart : first.span.start = t1.front.span.start := by rw [hfront, hsees.span]
  refine .bind reads_peek fun w t3 _ h3 ⟨hw, hword, _, hsees3⟩ => ?_
  refine .get_bind fun _ => ?_
  have hreaches := h2.trans h3
  refine .ite (fun _ => ?_) fun _ => .ite (fun _ => ?_) fun _ => ?_
  · exact reads_structDeclaration hm (hstart.le.trans hreaches.front) hfirst.start
  · refine .bind (reads_pass hw hword hsees3 h3) fun _ t4 _ h4 htakes => .bind reads_looksAt fun b t5 _ h5 _ => ?_
    refine .ite (fun _ => ?_) fun _ => reads_unexpected hw
    exact reads_interfaceBlock hm htakes h5 (hstart.le.trans (h2.front.trans htakes.start.ge)) hfirst.start
  · refine .bind reads_typeName fun ty t4 _ h4 _ => .bind reads_expect fun name t5 _ h5 hname => ?_
    have hbefore := hreaches.trans h4
    refine .bind reads_looksAt fun b t6 _ h6 hsees => .ite (fun _ => ?_) fun _ => ?_
    · exact reads_functionDeclaration hm hname.within
        (hstart.le.trans (hbefore.trans (h5.trans h6)).front) hfirst.start
    · exact reads_globalVariables hm hname h6 (hstart.le.trans (hbefore.front.trans hname.start.ge)) hfirst.start

lemma reads_declarations [site.AllowsGlobals] : Reads site s (declarations parts n) fun _ _ => True := by
  induction n generalizing s with
  | zero => exact reads_exhausted
  | succ n ih =>
    refine .bind reads_peek fun w t _ h ⟨hw, hfront, _, hsees⟩ => ?_
    split
    · exact .pure trivial
    · exact .bind (reads_pass hw hfront hsees h) fun _ _ _ _ _ => ih
    · exact .bind reads_globalDeclaration fun _ _ _ _ _ => ih

end Grammar
end Shading
