import Shading.Proofs.Check.Declaration
import Shading.Proofs.Grammar.Expression
import Shading.Proofs.Grammar.Qualifiers

/-! Statements are read as well-typed trees. -/
namespace Shading

namespace Stmt

variable {v : View} {d : Declared} {ret : Ty}

lemma good_declare {n : Nat} {e : Option Expr} {span : Span} :
    (Stmt.declare n e span).Good v d ret ↔ ∃ x, d.variables[n]? = some x ∧ ∀ i ∈ e, i.Good v d ∧ i.ty = x.ty := by
  rw [good_iff]
  constructor
  · rintro ⟨⟨x, hx, hty⟩, hwell, -⟩
    exact ⟨x, hx, fun i hi => ⟨hwell i (by simpa [exprs] using hi), hty i hi⟩⟩
  · rintro ⟨x, hx, he⟩
    exact ⟨⟨x, hx, fun i hi => (he i hi).2⟩, fun i hi => (he i (by simpa [exprs] using hi)).1, by simp [parts]⟩

end Stmt

namespace Grammar

-- The journal is kept by long steps too, and the instances that say so follow their parts.
set_option synthInstance.maxSize 1000

/-- The reading of parts of statements gives good ones. -/
class Parts.Sound (parts : Parts) : Prop extends Widens.OfParts parts where
  sound_expression : parts.expression.Sound
  ensures_statement : ∀ v s env ret, env.returns = some ret → ret.isProper = true →
    Ensures v s (parts.statement env) fun st d => st.Good v d ret

attribute [instance] Parts.Sound.sound_expression

section

variable {v : View} {s : State} {parts : Parts} [hparts : parts.Sound] {env : Surroundings} {ret : Ty}

lemma option_ensures {b : Bool} {m : Parse Expr} (h : Ensures v s m fun e d => e.Good v d) :
    Ensures v s (if b then some <$> m else pure none) fun r d => ∀ e ∈ r, e.Good v d := by
  refine .ite (fun _ => .map (.weaken h fun e d _ he => ?_)) fun _ => .pure (by simp)
  rintro _ ⟨⟩
  exact he

lemma localDeclarators_ensures (ret : Ty) {m : Modifiers} {base : Ty} {n : Nat} {found : List Stmt}
    (hbase : base.Good v)
    (hfound : ∀ st ∈ found, st.IsDeclare ∧ st.Good v s.declared ret) :
    Ensures v s (localDeclarators parts env m base n found) fun ss d => ∀ st ∈ ss, st.IsDeclare ∧
    st.Good v d ret := by
  induction n generalizing s found with
  | zero => exact .exhausted
  | succ n ih =>
    unfold localDeclarators
    refine .bind .expectIdentifier fun name t1 hle1 _ hname =>
      .bind (arraySuffixes_ensures hbase) fun ty t2 hle2 _ hty => ?_
    refine .after .acceptMark fun b t3 hle3 _ _ => ?_
    refine .ite_bind (option_ensures (Inner.Sound.ensures_single v t3 env)) fun e t4 hle4 _ he => ?_
    refine .after .lastEnd fun _ t5 hle5 _ _ => ?_
    refine .bind (.lift (Check.declareVariable_ensures hty hname fun i hi =>
      (he i hi).grow hle5.grows)) fun r t6 hle6 _ hr => ?_
    have hmore (span : Span) : ∀ st ∈ Stmt.declare r.1 r.2 span :: found, st.IsDeclare ∧
      st.Good v t6.declared ret := by
      refine List.forall_mem_cons.mpr ⟨⟨⟨_, _, _, rfl⟩, Stmt.good_declare.mpr hr⟩, fun st hst => ?_⟩
      exact ⟨(hfound st hst).1, (hfound st hst).2.grow
        (hle1.trans (hle2.trans (hle3.trans (hle4.trans (hle5.trans hle6))))).grows⟩
    refine .after .acceptMark fun b t7 hle7 _ _ => .ite (fun _ => ih fun st hst => ?_) fun _ =>
      .pure fun st hst => ?_
    · exact (hmore _ st hst).imp_right (·.grow hle7.grows)
    · exact (hmore _ st (List.mem_reverse.mp hst)).imp_right (·.grow hle7.grows)

lemma keepsJournal_declared (ss : List Stmt) (span : Span) : KeepsJournal (match ss with
    | [.declare number initializer _] => pure (.declare number initializer span)
    | ss => pure (.block false ss span) : Parse Stmt) := by
  split <;> infer_instance

lemma localDeclaration_ensures :
    Ensures v s (localDeclaration parts env) fun st d => st.isHeader = true ∧ st.Good v d ret := by
  have htail := keepsJournal_declared
  refine .after .peek fun _ _ _ _ _ => .bind modifiers_ensures fun _ _ _ _ _ => .bind .reportIf fun _ _ _ _ _ => ?_
  refine .bind typeName_ensures fun base _ _ _ hbase => ?_
  refine .bind (localDeclarators_ensures ret hbase (by simp)) fun ss t1 hle1 _ hss => ?_
  refine .after .expectMark fun _ t2 hle2 _ _ => .after .spanFrom fun span t3 hle3 _ _ => ?_
  have hss' : ∀ st ∈ ss, st.IsDeclare ∧ st.Good v t3.declared ret :=
    fun st hst => (hss st hst).imp_right (·.grow (hle2.trans hle3).grows)
  split
  · refine .pure ⟨rfl, ?_⟩
    exact Stmt.good_declare.mpr (Stmt.good_declare.mp (hss' _ List.mem_cons_self).2)
  · refine .pure ⟨Stmt.isHeader_block.mpr fun st hst =>
      (hss' st hst).1, Stmt.good_iff.mpr ⟨trivial, by simp [Stmt.exprs], ?_⟩⟩
    exact fun st hst => (hss' st hst).2

lemma expressionStatement_ensures :
    Ensures v s (expressionStatement parts env) fun st d => st.isHeader = true ∧ st.Good v d ret := by
  refine .bind (Inner.Sound.ensures_whole v s env) fun e t1 hle1 _ he => .after .expectMark fun _ t2 hle2 _ _ => ?_
  refine .after .spanFrom fun span t3 hle3 _ _ =>
    .pure ⟨rfl, Stmt.good_iff.mpr ⟨trivial, ?_, by simp [Stmt.parts]⟩⟩
  simpa [Stmt.exprs] using he.grow (hle2.trans hle3).grows

lemma blockStatements_ensures {n : Nat} {found : List Stmt} (henv : env.returns = some ret)
    (hret : ret.isProper = true)
    (hfound : ∀ st ∈ found, st.Good v s.declared ret) :
    Ensures v s (blockStatements parts env n found) fun ss d => ∀ st ∈ ss, st.Good v d ret := by
  induction n generalizing s found with
  | zero => exact .exhausted
  | succ n ih =>
    unfold blockStatements
    refine .after .peek fun w t1 hle1 _ _ => ?_
    split
    · refine .after .advance fun _ t2 hle2 _ _ => .pure fun st hst => ?_
      exact (hfound st (List.mem_reverse.mp hst)).grow (hle1.trans hle2).grows
    · exact .unexpected
    · refine .bind (hparts.ensures_statement v t1 env ret henv hret) fun st t2 hle2 _ hst => ih ?_
      exact List.forall_mem_cons.mpr ⟨hst, fun st' hst' => (hfound st' hst').grow (hle1.trans hle2).grows⟩

lemma blockBody_ensures {opening : Word} (henv : env.returns = some ret) (hret : ret.isProper = true) :
    Ensures v s (blockBody parts env opening) fun st d => st.Good v d ret := by
  refine .bind (.nested fun room => @blockStatements_ensures _ _ parts _ { env with room } _ _ _
    henv hret (by simp))
    fun ss t1 hle1 _ hss => .after .spanFrom fun span t2 hle2 _ _ => ?_
  exact .pure (Stmt.good_iff.mpr ⟨trivial, by simp [Stmt.exprs], fun st hst => (hss st hst).grow hle2.grows⟩)

lemma blockStatement_ensures (henv : env.returns = some ret) (hret : ret.isProper = true) :
    Ensures v s (blockStatement parts env) fun st d => st.Good v d ret := by
  refine .after .next fun opening _ _ _ _ => .bind (.lift Check.enterScope_ensures) fun _ _ _ _ _ => ?_
  refine .bind (blockBody_ensures henv hret) fun st t1 _ _ hst => ?_
  exact .bind (.lift Check.leaveScope_ensures) fun _ t2 hle2 _ _ => .pure (hst.grow hle2.grows)

lemma condition_ensures : Ensures v s (condition parts env) fun e d => e.Good v d ∧ e.ty = .bool := by
  refine .after .expectMark fun _ _ _ _ _ => .bind (Inner.Sound.ensures_whole v _ env) fun e t1 _ _ he => ?_
  exact .after .expectMark fun _ t2 hle2 _ _ => .lift (Check.coerce_ensures (he.grow hle2.grows) rfl)

lemma ifStatement_ensures (henv : env.returns = some ret) (hret : ret.isProper = true) :
    Ensures v s (ifStatement parts env) fun st d => st.Good v d ret := by
  refine .after .next fun _ _ _ _ _ => .bind condition_ensures fun c t1 _ _ hc => ?_
  refine .bind (hparts.ensures_statement v _ env ret henv hret) fun t t2 hle2 _ ht =>
    .after .accept? fun b t3 hle3 _ _ => ?_
  have hf : Ensures v t3 (if b.isSome then some <$> parts.statement env else pure none) fun f d =>
    ∀ x ∈ f, x.Good v d ret := by
    refine .ite (fun _ => .map (.weaken (hparts.ensures_statement v _ env ret henv hret)
      fun x d _ hx => ?_)) fun _ => .pure (by simp)
    rintro _ ⟨⟩
    exact hx
  refine .ite_bind hf fun f t4 hle4 _ hf => .after .spanFrom fun span t5 hle5 _ _ => .pure ?_
  have h3 := (hle3.trans (hle4.trans hle5)).grows
  refine Stmt.good_iff.mpr ⟨hc.2, ?_, ?_⟩
  · simpa [Stmt.exprs] using hc.1.grow (hle2.grows.trans h3)
  · intro x hx
    rcases List.mem_cons.mp hx with rfl | hx
    · exact ht.grow h3
    · exact (hf x (Option.mem_toList.mp hx)).grow hle5.grows

variable {d : Declared}

lemma good_loop {k : LoopKind} {init : Option Stmt} {c step : Option Expr} {body : Stmt} {span : Span}
    (hinit : ∀ i ∈ init, i.isHeader = true ∧ i.Good v d ret) (hc : ∀ e ∈ c, e.Good v d ∧ e.ty = .bool)
    (hstep : ∀ e ∈ step, e.Good v d) (hbody : body.Good v d ret) :
    (Stmt.loop k init c step body span).Good v d ret := by
  refine Stmt.good_iff.mpr ⟨⟨fun i hi => (hinit i hi).1, fun e he => (hc e he).2⟩, fun e he => ?_, fun x hx => ?_⟩
  · rcases List.mem_append.mp he with he | he
    · exact (hc e (Option.mem_toList.mp he)).1
    · exact hstep e (Option.mem_toList.mp he)
  · rcases List.mem_append.mp hx with hx | hx
    · exact (hinit x (Option.mem_toList.mp hx)).2
    · rwa [List.mem_singleton.mp hx]

lemma loopBody_ensures (henv : env.returns = some ret) (hret : ret.isProper = true) :
    Ensures v s (loopBody parts env) fun st d => st.Good v d ret :=
  hparts.ensures_statement v s { env with inLoop := true } ret henv hret

lemma forInit_ensures (ret : Ty) :
    Ensures v s (forInit parts env) fun r d => ∀ i ∈ r, i.isHeader = true ∧ i.Good v d ret := by
  have hsome {m : Parse Stmt} {s : State} (h : Ensures v s m fun st d => st.isHeader = true ∧ st.Good v d ret) :
      Ensures v s (some <$> m) fun r d => ∀ i ∈ r, i.isHeader = true ∧ i.Good v d ret := by
    refine .map (.weaken h fun st d _ hst => ?_)
    rintro _ ⟨⟩
    exact hst
  refine .after .peek fun w _ _ _ _ => .ite (fun _ => .after .advance fun _ _ _ _ _ => .pure (by simp)) fun _ => ?_
  exact .get_bind fun _ => .ite (fun _ => hsome localDeclaration_ensures) fun _ =>
    hsome expressionStatement_ensures

lemma forCondition_ensures : Ensures v s (forCondition parts env) fun r d => ∀ e ∈ r, e.Good v d ∧
    e.ty = .bool := by
  refine .after .looksAt fun _ _ _ _ _ => .ite (fun _ => .pure (by simp)) fun _ => ?_
  refine .bind (Inner.Sound.ensures_whole v _ env) fun e _ _ _ he => ?_
  refine .map (.weaken (.lift (Check.coerce_ensures he rfl)) fun e d _ he => ?_)
  rintro _ ⟨⟩
  exact he

lemma forStatement_ensures (henv : env.returns = some ret) (hret : ret.isProper = true) :
    Ensures v s (forStatement parts env) fun st d => st.Good v d ret := by
  refine .after .next fun _ _ _ _ _ => .after .expectMark fun _ _ _ _ _ =>
    .bind (.lift Check.enterScope_ensures) fun _ _ _ _ _ => ?_
  refine .bind (forInit_ensures ret) fun init t1 _ _ hinit => .bind forCondition_ensures fun c t2 hle2 _ hc => ?_
  refine .after .expectMark fun _ t3 hle3 _ _ => .after .looksAt fun b t4 hle4 _ _ => ?_
  have hstep : Ensures v t4 (if b then pure none else some <$> parts.expression.whole env)
    fun r d => ∀ e ∈ r, e.Good v d := by
    refine .ite (fun _ => .pure (by simp)) fun _ =>
      .map (.weaken (Inner.Sound.ensures_whole v _ env) fun e d _ he => ?_)
    rintro _ ⟨⟩
    exact he
  refine .ite_bind hstep fun step t5 hle5 _ hstep => .after .expectMark fun _ t6 hle6 _ _ => ?_
  refine .bind (loopBody_ensures henv hret) fun body t7 hle7 _ hbody =>
    .bind (.lift Check.leaveScope_ensures) fun _ t8 hle8 _ _ => ?_
  refine .after .spanFrom fun span t9 hle9 _ _ => .pure ?_
  have h7 := hle8.trans hle9
  have h5 := hle6.trans (hle7.trans h7)
  have h2 := hle3.trans (hle4.trans (hle5.trans h5))
  refine good_loop (fun i hi => (hinit i hi).imp_right (·.grow (hle2.trans h2).grows))
    (fun e he => ?_) (fun e he => ?_)
    (hbody.grow h7.grows)
  · exact (hc e he).imp_left (·.grow h2.grows)
  · exact (hstep e he).grow h5.grows

lemma whileStatement_ensures (henv : env.returns = some ret) (hret : ret.isProper = true) :
    Ensures v s (whileStatement parts env) fun st d => st.Good v d ret := by
  refine .after .next fun _ _ _ _ _ => .bind condition_ensures fun c t1 _ _ hc => ?_
  refine .bind (loopBody_ensures henv hret) fun body t2 hle2 _ hbody =>
    .after .spanFrom fun span t3 hle3 _ _ => .pure ?_
  refine good_loop (by simp) ?_ (by simp) (hbody.grow hle3.grows)
  rintro _ ⟨⟩
  exact hc.imp_left (·.grow (hle2.trans hle3).grows)

lemma doStatement_ensures (henv : env.returns = some ret) (hret : ret.isProper = true) :
    Ensures v s (doStatement parts env) fun st d => st.Good v d ret := by
  refine .after .next fun _ _ _ _ _ => .bind (loopBody_ensures henv hret) fun body t1 _ _ hbody => ?_
  refine .after .expect fun _ t2 hle2 _ _ => .bind condition_ensures fun c t3 hle3 _ hc => ?_
  refine .after .expectMark fun _ t4 hle4 _ _ => .after .spanFrom fun span t5 hle5 _ _ => .pure ?_
  refine good_loop (by simp) ?_ (by simp) (hbody.grow (hle2.trans (hle3.trans (hle4.trans hle5))).grows)
  rintro _ ⟨⟩
  exact hc.imp_left (·.grow (hle4.trans hle5).grows)

/-- The statements read for the cases of a switch. -/
def Cases.Good (v : View) (d : Declared) (ret : Ty) (cases : Cases) : Prop :=
    ∀ c ∈ cases.found, ∀ st ∈ c.body, st.Good v d ret

variable {cases : Cases}

lemma Cases.Good.grow {d' : Declared} (h : cases.Good v d ret) (hd : d.Grows d') : cases.Good v d' ret :=
  fun c hc st hst => (h c hc st hst).grow hd

lemma Cases.Good.add {c : SwitchCase Stmt} (h : cases.Good v d ret) (hc : c.body = []) :
    (cases.add c).Good v d ret := by
  refine List.forall_mem_cons.mpr ⟨?_, h⟩
  rw [hc]
  exact List.forall_mem_nil _

lemma Cases.Good.push {st : Stmt} (h : cases.Good v d ret) (hst : st.Good v d ret) :
    (cases.push st).Good v d ret := by
  unfold Cases.push
  cases hfound : cases.found with
  | nil => exact h
  | cons c more =>
    unfold Good at h
    rw [hfound, List.forall_mem_cons] at h
    exact List.forall_mem_cons.mpr ⟨List.forall_mem_cons.mpr ⟨hst, h.1⟩, h.2⟩

lemma Cases.Good.toList (h : cases.Good v d ret) :
    ∀ st ∈ cases.toList.flatMap (·.body), st.Good v d ret := by
  intro st hst
  simp only [Cases.toList, List.mem_flatMap, List.mem_reverse, List.mem_map] at hst
  obtain ⟨_, ⟨c, hc, rfl⟩, hst⟩ := hst
  exact h c hc st (List.mem_reverse.mp hst)

variable {w : Word}

lemma caseLabel_ensures {selector : Option Ty} (hselector : ∀ ty ∈ selector, ty.isProper = true)
    (h : cases.Good v s.declared ret) :
    Ensures v s (caseLabel parts env selector cases w) fun cases d => cases.Good v d ret := by
  have hvalue {e : Expr} {t : State} (he : e.Good v t.declared) :
    Ensures v t (lift (caseValue selector e)) fun _ _ => True := by
    cases selector with
    | none => exact .pure trivial
    | some ty => exact .weaken (.lift (Check.coerce_ensures he (hselector ty rfl))) fun _ _ _ _ => trivial
  have hvalues {e : Expr} {t : State} : Ensures v t (lift (addCaseValue cases.values e)) fun _ _ => True := by
    refine .lift ?_
    unfold addCaseValue
    split <;> exact .bind .reportIf fun _ _ _ _ _ => .pure trivial
  refine .bind (Inner.Sound.ensures_whole v _ env) fun e t1 hle1 _ he => .bind (hvalue he) fun e t2 hle2 _ _ => ?_
  refine .after .expectMark fun _ t3 hle3 _ _ => .bind hvalues fun values t4 hle4 _ _ =>
    .after .spanFrom fun span t5 hle5 _ _ => ?_
  exact .pure (.add (h.grow (hle1.trans (hle2.trans (hle3.trans (hle4.trans hle5)))).grows) rfl)

lemma defaultLabel_ensures (h : cases.Good v s.declared ret) :
    Ensures v s (defaultLabel cases w) fun cases d => cases.Good v d ret := by
  refine .after .expectMark fun _ t1 hle1 _ _ => .bind .reportIf fun _ t2 hle2 _ _ =>
    .after .spanFrom fun span t3 hle3 _ _ => ?_
  exact .pure (.add (h.grow (hle1.trans (hle2.trans hle3)).grows) rfl)

lemma switchCases_ensures {selector : Option Ty} {n : Nat} (hselector : ∀ ty ∈ selector, ty.isProper = true)
    (henv : env.returns = some ret) (hret : ret.isProper = true) (h : cases.Good v s.declared ret) :
    Ensures v s (switchCases parts env selector n cases) fun cs d =>
    ∀ st ∈ cs.flatMap (·.body), st.Good v d ret := by
  induction n generalizing s cases with
  | zero => exact .exhausted
  | succ n ih =>
    unfold switchCases
    refine .after .peek fun w t1 hle1 _ _ => ?_
    have h1 := h.grow hle1.grows
    split
    · exact .after .advance fun _ t2 hle2 _ _ => .pure (h1.grow hle2.grows).toList
    · exact .after .advance fun _ t2 hle2 _ _ =>
        .bind (caseLabel_ensures hselector (h1.grow hle2.grows)) fun cases _ _ _ h => ih h
    · exact .after .advance fun _ t2 hle2 _ _ =>
        .bind (defaultLabel_ensures (h1.grow hle2.grows)) fun cases _ _ _ h => ih h
    · refine .ite (fun _ => .after .advance fun _ _ _ _ _ => .unexpected) fun _ => ?_
      exact .bind (hparts.ensures_statement v _ env ret henv hret) fun st t2 hle2 _ hst =>
        ih ((h1.grow hle2.grows).push hst)

lemma switchStatement_ensures (henv : env.returns = some ret) (hret : ret.isProper = true) :
    Ensures v s (switchStatement parts env) fun st d => st.Good v d ret := by
  refine .after .next fun _ _ _ _ _ => .after .expectMark fun _ _ _ _ _ => ?_
  refine .bind (Inner.Sound.ensures_whole v _ env) fun e t1 _ _ he => .after .expectMark fun _ t2 hle2 _ _ => ?_
  refine .bind .reportIf fun _ t3 hle3 _ hvalid => .after .expectMark fun opening t4 hle4 _ _ => ?_
  rw [Bool.not_eq_false', he.1.not_isPoisoned, Bool.false_or] at hvalid
  have hcases {s : State} {room : Nat} : Ensures v s (do
      Check.enterScope
      let cases ← switchCases parts { env with inSwitch := true, room } (some e.ty) parts.fuel {}
      Check.leaveScope
      return cases) fun cs d => ∀ st ∈ cs.flatMap (·.body), st.Good v d ret := by
    refine .bind (.lift Check.enterScope_ensures) fun _ _ _ _ _ => ?_
    refine .bind (switchCases_ensures (by simpa using he.1.proper) henv hret (by simp [Cases.Good]))
      fun cs _ _ _ hcs => ?_
    exact .bind (.lift Check.leaveScope_ensures) fun _ _ hle _ _ => .pure fun st hst => (hcs st hst).grow hle.grows
  rw [he.1.not_isPoisoned, Bool.false_or, hvalid, if_pos rfl]
  refine .bind (.nested fun room => hcases) fun cs t5 hle5 _ hcs =>
    .after .spanFrom fun span t6 hle6 _ _ => .pure ?_
  refine Stmt.good_iff.mpr ⟨by simpa [Stmt.Typed] using hvalid, ?_, fun st hst => (hcs st hst).grow hle6.grows⟩
  simpa [Stmt.exprs] using he.grow (hle2.trans (hle3.trans (hle4.trans (hle5.trans hle6)))).grows

lemma returnedValue_ensures {e : Expr} (he : e.Good v s.declared) (hret : ret.isProper = true) :
    Ensures v s (lift (returnedValue (some ret) e)) fun e d => e.Good v d ∧ e.ty = ret ∧ ret.isVoid = false := by
  refine .lift (.ite (fun _ => .report_bind) fun hvoid => ?_)
  exact .weaken (Check.coerce_ensures he hret) fun v d _ hv => ⟨hv.1, hv.2, by simpa using hvoid⟩

lemma returned_ensures (henv : env.returns = some ret) (hret : ret.isProper = true) :
    Ensures v s (returned parts env w) fun r d => (r = none ↔ ret.isVoid = true) ∧
    ∀ e ∈ r, e.Good v d ∧ e.ty = ret := by
  unfold returned
  rw [henv]
  refine .after .looksAt fun _ _ _ _ _ => .ite (fun _ => ?_) fun _ => ?_
  · refine .bind .reportIf fun _ _ _ _ hvoid => .pure ⟨?_, by simp⟩
    simpa using hvoid
  · refine .bind (Inner.Sound.ensures_whole v _ env) fun e _ _ _ he => ?_
    refine .map (.weaken (returnedValue_ensures he hret) fun e d _ he => ⟨by simp [he.2.2], ?_⟩)
    rintro _ ⟨⟩
    exact ⟨he.1, he.2.1⟩

lemma returnStatement_ensures (henv : env.returns = some ret) (hret : ret.isProper = true) :
    Ensures v s (returnStatement parts env) fun st d => st.Good v d ret := by
  refine .after .next fun w _ _ _ _ => .bind (returned_ensures henv hret) fun e t1 _ _ he => ?_
  refine .after .expectMark fun _ t2 hle2 _ _ => .after .spanFrom fun span t3 hle3 _ _ => .pure ?_
  refine Stmt.good_iff.mpr ⟨⟨he.1, fun x hx => (he.2 x hx).2⟩, fun x hx => ?_, by simp [Stmt.parts]⟩
  exact (he.2 x (Option.mem_toList.mp hx)).1.grow (hle2.trans hle3).grows

lemma jumpEnd_ensures {make : Span → Stmt}
    (h : ∀ d span, (make span).Typed d ret ∧ (make span).exprs = [] ∧ (make span).parts = []) :
    Ensures v s (jumpEnd w make) fun st d => st.Good v d ret := by
  refine .after .expectMark fun _ _ _ _ _ => .after .spanFrom fun span t _ _ _ => .pure ?_
  obtain ⟨hrule, hexprs, hparts⟩ := h t.declared span
  exact Stmt.good_iff.mpr ⟨hrule, by simp [hexprs], by simp [hparts]⟩

lemma statementWith_ensures (henv : env.returns = some ret) (hret : ret.isProper = true) :
    Ensures v s (statementWith parts env) fun st d => st.Good v d ret := by
  refine .after .peek fun w _ _ _ _ => ?_
  split
  · exact blockStatement_ensures henv hret
  · refine .after .advance fun _ _ _ _ _ => .pure (Stmt.good_iff.mpr ⟨trivial, ?_, ?_⟩)
    · simp [Stmt.exprs]
    · simp [Stmt.parts]
  · exact ifStatement_ensures henv hret
  · exact forStatement_ensures henv hret
  · exact whileStatement_ensures henv hret
  · exact doStatement_ensures henv hret
  · exact switchStatement_ensures henv hret
  · exact returnStatement_ensures henv hret
  · exact .after .next fun _ _ _ _ _ => .bind .reportIf fun _ _ _ _ _ => jumpEnd_ensures fun _ _ =>
      ⟨trivial, rfl, rfl⟩
  · exact .after .next fun _ _ _ _ _ => .bind .reportIf fun _ _ _ _ _ => jumpEnd_ensures fun _ _ =>
      ⟨trivial, rfl, rfl⟩
  · refine .after .next fun _ _ _ _ _ => .get_bind fun _ => .bind .reportIf fun _ _ _ _ _ => ?_
    exact jumpEnd_ensures fun _ _ => ⟨trivial, rfl, rfl⟩
  · refine .get_bind fun _ => .ite (fun _ => ?_) fun _ => ?_
    · exact .weaken localDeclaration_ensures fun _ _ _ h => h.2
    · exact .weaken expressionStatement_ensures fun _ _ _ h => h.2

end

instance {expression : Inner} [Still.OfInner expression] {fuel n : Nat} :
    Widens.OfParts ⟨expression, statements expression fuel n, fuel⟩ := ⟨inferInstance, fun _ => inferInstance⟩

instance sound_statements {expression : Inner} [hexpression : expression.Sound] {fuel n : Nat} :
    Parts.Sound ⟨expression, statements expression fuel n, fuel⟩ := by
  induction n with
  | zero => exact ⟨hexpression, fun _ _ _ _ _ _ => .exhausted⟩
  | succ n ih => exact ⟨hexpression, fun _ _ _ _ henv hret => statementWith_ensures henv hret⟩

end Grammar
end Shading
