import Mathlib
import Shading.Check.Access
import Shading.Check.Call
import Shading.Check.Constructor
import Shading.Check.Declaration

/-! Checking never takes back what has been reported: every step only adds to the journal. A context
without problems at the end of some steps therefore had none at any point before. Types, variables
and the parameters of functions are not taken back either. -/
namespace Shading

namespace Arena

variable {α : Type}

lemma get?_push (a : Arena α) (x : α) {i : Nat} {y : α} (h : a.get? i = some y) : (a.push x).get? i = some y := by
  have hlt : i < a.size := by
    unfold get? at h
    unfold size
    split at h
    · omega
    · have := (Array.getElem?_eq_some_iff.mp h).1
      omega
  rw [get?_push_of_lt hlt, h]

/-- Numbers keep their meaning. -/
def Continues (a b : Arena α) : Prop := ∀ ⦃i x⦄, a.get? i = some x → b.get? i = some x

lemma Continues.refl (a : Arena α) : a.Continues a := fun _ _ h => h

lemma Continues.trans {a b c : Arena α} (h : a.Continues b) (k : b.Continues c) : a.Continues c :=
    fun _ _ hx => k (h hx)

lemma continues_push (a : Arena α) (x : α) : a.Continues (a.push x) := fun _ _ h => a.get?_push x h

lemma get?_modify_cases (a : Arena α) (n : Nat) (f : α → α) {i : Nat} {x : α} (h : a.get? i = some x) :
    (a.modify n f).get? i = some x ∨ (a.modify n f).get? i = some (f x) := by
  unfold modify
  split
  · exact .inl h
  · unfold get? at h ⊢
    dsimp only
    split
    · rw [if_pos ‹_›] at h
      exact .inl h
    · rw [if_neg ‹_›] at h
      rw [Array.getElem?_modify, h]
      split
      · exact .inr rfl
      · exact .inl rfl

end Arena

lemma TypeTable.continues_addArray (table : TypeTable) (element : Ty) (size : Option Nat) :
    table.Continues (table.addArray element size) := by
  unfold addArray
  split
  · exact .refl table
  · exact table.continues_push _

/-- No problem has been reported. -/
def Journal.Clean (j : Journal) : Prop := j.hasProblems = false

lemma Journal.Clean.of_suffix {j k : Journal} (hk : k.Clean) (h : j <:+ k) : j.Clean := by
  unfold Clean hasProblems at *
  rw [List.any_eq_false] at *
  exact fun e he => hk e (h.subset he)

/-- When a problem is found: on the way, where reading stops, or at the end of the source. -/
inductive Occasion where
  | passing | fatal | final

-- The two functions are reducible so that the search for instances computes the occasion of what a step reports.
@[reducible] def Problem.occasion : Problem → Occasion
  | unexpected .. | nestedTooDeeply => .fatal
  | missingMain | undefinedFunction _ => .final
  | _ => .passing

@[reducible] def Event.occasion : Event → Occasion
  | problemFound r => r.problem.occasion
  | _ => .passing

class Occasion.Is (a b : Occasion) : Prop where
  eq : a = b

instance (a : Occasion) : a.Is a := ⟨rfl⟩

lemma Problem.occasion_eq_fatal_iff {p : Problem} : p.occasion = .fatal ↔ p.stage = .grammatical := by
  cases p <;> simp [stage]

/-- What has been reported was found on the way. -/
def Journal.IsPassing (j : Journal) : Prop := ∀ e ∈ j, e.occasion = .passing

lemma Journal.IsPassing.cons {j : Journal} {e : Event} (he : e.occasion = .passing) (h : j.IsPassing) :
    Journal.IsPassing (e :: j) :=
  List.forall_mem_cons.mpr ⟨he, h⟩

/-- One context comes before another: nothing has been taken back in between. -/
structure Context.Precedes (c d : Context) : Prop where
  kind : c.kind = d.kind
  journal : c.journal <:+ d.journal
  types : c.types.Continues d.types
  variable_ : ∀ {n : Nat} {v}, c.variables[n]? = some v → d.variables[n]? = some v
  parameters : ∀ {n : Nat} {f}, c.functions.get? n = some f → ∃ g, d.functions.get? n = some g ∧
    g.parameters = f.parameters

namespace Context.Precedes

lemma refl (c : Context) : c.Precedes c := ⟨rfl, List.suffix_rfl, .refl _, fun h => h, fun hf => ⟨_, hf, rfl⟩⟩

lemma trans {a b c : Context} (h : a.Precedes b) (k : b.Precedes c) : a.Precedes c := by
  refine ⟨h.kind.trans k.kind, h.journal.trans k.journal, h.types.trans k.types, fun hv =>
    k.variable_ (h.variable_ hv), fun hf => ?_⟩
  obtain ⟨g, hg, hparameters⟩ := h.parameters hf
  obtain ⟨g', hg', hparameters'⟩ := k.parameters hg
  exact ⟨g', hg', hparameters'.trans hparameters⟩

end Context.Precedes

namespace Check

variable {α β : Type}

/-- The step only adds to the journal and to the tables, and what it reports is found on the way. -/
class KeepsJournal (m : Check α) : Prop where
  precedes : ∀ c : Context, c.Precedes (m c).2
  passing : ∀ c : Context, c.journal.IsPassing → (m c).2.journal.IsPassing

namespace KeepsJournal

lemma suffix {m : Check α} [hm : KeepsJournal m] (c : Context) : c.journal <:+ (m c).2.journal :=
    (hm.precedes c).journal

lemma of_silent {m : Check α} (hjournal : ∀ c : Context, (m c).2.journal = c.journal)
    (h : ∀ c : Context, c.Precedes (m c).2) :
    KeepsJournal m :=
  ⟨h, fun c hc => (hjournal c).symm ▸ hc⟩

lemma of_scopes {m : Check α} (h : ∀ c : Context, ∃ scopes calls,
    (m c).2 = { c with scopes, calls }) : KeepsJournal m := by
  refine .of_silent (fun c => ?_) fun c => ?_
  all_goals
    obtain ⟨scopes, calls, hc⟩ := h c
    rw [hc]
  exact ⟨rfl, List.suffix_rfl, .refl _, fun hv => hv, fun hf => ⟨_, hf, rfl⟩⟩

instance (a : α) : KeepsJournal (pure a : Check α) := .of_silent (fun _ => rfl) .refl

instance bind (m : Check α) (f : α → Check β) [hm : KeepsJournal m] [hf : ∀ a, KeepsJournal (f a)] :
    KeepsJournal (m >>= f) :=
  ⟨fun c => (hm.precedes c).trans ((hf (m c).1).precedes (m c).2), fun c hc =>
    (hf (m c).1).passing _ (hm.passing c hc)⟩

instance (f : α → β) (m : Check α) [hm : KeepsJournal m] : KeepsJournal (f <$> m) := ⟨hm.precedes, hm.passing⟩

instance (p : Prop) [Decidable p] (m n : Check α) [hm : KeepsJournal m] [hn : KeepsJournal n] :
    KeepsJournal (if p then m else n) := by
  split <;> assumption

instance : KeepsJournal (get : Check Context) := .of_silent (fun _ => rfl) .refl

lemma of_functions {f : Context → Arena Function}
    (h : ∀ {c : Context} {n : Nat} {g : Function}, c.functions.get? n = some g →
    ∃ g', (f c).get? n = some g' ∧ g'.parameters = g.parameters) :
    KeepsJournal (modify fun c => { c with functions := f c } : Check Unit) :=
  .of_silent (fun _ => rfl) fun _ => ⟨rfl, List.suffix_rfl, .refl _, fun hv => hv, h⟩

instance mapM (f : α → Check β) [hf : ∀ a, KeepsJournal (f a)] (as : List α) : KeepsJournal (as.mapM f) := by
  induction as with
  | nil => rw [List.mapM_nil]; infer_instance
  | cons a as ih => rw [List.mapM_cons]; infer_instance

instance forM (f : α → Check PUnit) [hf : ∀ a, KeepsJournal (f a)] (as : List α) : KeepsJournal (as.forM f) := by
  induction as with
  | nil => exact .of_silent (fun _ => rfl) .refl
  | cons a as ih => exact bind (f a) fun _ => as.forM f

lemma precedes_note (e : Event) (c : Context) : c.Precedes (note e c).2 :=
  ⟨rfl, List.suffix_cons e c.journal, .refl _, fun hv => hv, fun hf => ⟨_, hf, rfl⟩⟩

instance (e : Event) [he : e.occasion.Is .passing] : KeepsJournal (note e) :=
    ⟨precedes_note e, fun _ hc => hc.cons he.eq⟩

instance : KeepsJournal enterScope := .of_scopes fun c => ⟨_, c.calls, rfl⟩

instance : KeepsJournal leaveScope := .of_scopes fun c => ⟨_, c.calls, rfl⟩

instance (name : String) (symbol : Symbol) : KeepsJournal (tryBind name symbol) := by
  refine @bind _ _ _ _ inferInstance fun c => ?_
  split
  · exact .of_scopes fun c => ⟨_, c.calls, rfl⟩
  · infer_instance

end KeepsJournal

/-- The step leaves the names in scope and the functions alone as well. -/
class Still (m : Check α) : Prop extends KeepsJournal m where
  scopes : ∀ c : Context, (m c).2.scopes = c.scopes
  functions : ∀ c : Context, (m c).2.functions = c.functions

namespace Still

instance (a : α) : Still (pure a : Check α) := ⟨fun _ => rfl, fun _ => rfl⟩

instance bind (m : Check α) (f : α → Check β) [hm : Still m] [hf : ∀ a, Still (f a)] : Still (m >>= f) :=
  ⟨fun c => ((hf (m c).1).scopes _).trans (hm.scopes c), fun c =>
    ((hf (m c).1).functions _).trans (hm.functions c)⟩

instance (f : α → β) (m : Check α) [hm : Still m] : Still (f <$> m) := ⟨hm.scopes, hm.functions⟩

instance (p : Prop) [Decidable p] (m n : Check α) [hm : Still m] [hn : Still n] : Still (if p then m else n) := by
  split <;> assumption

instance : Still (get : Check Context) := ⟨fun _ => rfl, fun _ => rfl⟩

instance mapM (f : α → Check β) [hf : ∀ a, Still (f a)] (as : List α) : Still (as.mapM f) := by
  induction as with
  | nil => rw [List.mapM_nil]; infer_instance
  | cons a as ih => rw [List.mapM_cons]; infer_instance

instance foldlM (f : β → α → Check β) [hf : ∀ b a, Still (f b a)] (b : β) (as : List α) :
    Still (as.foldlM f b) := by
  induction as generalizing b with
  | nil => rw [List.foldlM_nil]; infer_instance
  | cons a as ih => rw [List.foldlM_cons]; infer_instance

instance option_mapM (f : α → Check β) [hf : ∀ a, Still (f a)] (a : Option α) : Still (a.mapM f) := by
  cases a with
  | none => exact inferInstanceAs (Still (Pure.pure none))
  | some a => exact inferInstanceAs (Still (some <$> f a))

instance (e : Event) [e.occasion.Is .passing] : Still (note e) := ⟨fun _ => rfl, fun _ => rfl⟩

instance (p : Problem) (span : Span) [p.occasion.Is .passing] : Still (report p span) := by
    unfold report; infer_instance

instance (b : Bool) (p : Problem) (span : Span) [p.occasion.Is .passing] : Still (reportIf b p span) := by
  unfold reportIf; infer_instance

/-- A step that reports nothing and only adds to the tables of types and variables. -/
lemma of_silent {m : Check α} (hjournal : ∀ c : Context, (m c).2.journal = c.journal)
    (h : ∀ c : Context, c.Precedes (m c).2)
    (hscopes : ∀ c : Context, (m c).2.scopes = c.scopes)
    (hfunctions : ∀ c : Context, (m c).2.functions = c.functions) : Still m :=
  @mk _ _ (.of_silent hjournal h) hscopes hfunctions

instance (element : Ty) (size : Option Nat) : Still (arrayOf element size) :=
  .of_silent (fun _ => rfl) (fun c => ⟨rfl, List.suffix_rfl,
    c.types.continues_addArray element size, fun h => h, fun hf => ⟨_, hf, rfl⟩⟩)
    (fun _ => rfl) fun _ => rfl

instance (name : String) (fields : List (Field Ty)) (block : Bool) : Still (declareStruct name fields block) :=
  .of_silent (fun _ => rfl) (fun c => ⟨rfl, List.suffix_rfl, c.types.continues_push _, fun h =>
    h, fun hf => ⟨_, hf, rfl⟩⟩)
    (fun _ => rfl) fun _ => rfl

instance (v : Variable) : Still (addVariable v) := by
  refine .of_silent (fun _ => rfl) (fun c => ⟨rfl, List.suffix_rfl, .refl _, fun {n w} h =>
    ?_, fun hf => ⟨_, hf, rfl⟩⟩) (fun _ => rfl) fun _ => rfl
  have hn := (Array.getElem?_eq_some_iff.mp h).1
  change (c.variables.push v)[n]? = some w
  rw [Array.getElem?_push_lt hn, ← h, Array.getElem?_eq_getElem hn]

instance (v : Literal) (ty : Ty) (span : Span) : Still (castLiteral v ty span) := by
  unfold castLiteral; repeat' split
  all_goals infer_instance

instance (e : Expr) (ty : Ty) : Still (cast e ty) := by
  unfold cast; repeat' split
  all_goals infer_instance

instance (e : Expr) (ty : Ty) : Still (coerce e ty) := by
  unfold coerce; repeat' split
  all_goals infer_instance

lemma occasion_obstacle {declared : Nat → Option Variable} {e : Expr} {r : Report}
    (h : e.obstacle? declared = some r) :
    r.problem.occasion.Is .passing := by
  fun_induction Expr.obstacle? declared e with
  | case1 => cases h
  | case2 n ty span v hv =>
    obtain ⟨why, -, rfl⟩ := Option.map_eq_some_iff.mp h
    infer_instance
  | case4 _ _ _ _ _ ih | case5 _ _ _ _ ih | case6 _ _ _ _ _ ih => exact ih h
  | _ =>
    cases h
    infer_instance

instance (e : Expr) : Still (assignable e) := by
  refine @bind _ _ _ _ inferInstance fun c => ?_
  split
  · have := occasion_obstacle ‹_›
    infer_instance
  · infer_instance

instance (op : Operator) (l r : Expr) (ty : Ty) (span : Span) : Still (foldBinary op l r ty span) := by
  unfold foldBinary; repeat' split
  all_goals infer_instance

instance (l : Expr) (op : Operator) (r : Expr) : Still (binary l op r) := by
  unfold binary
  dsimp only
  repeat' split
  all_goals infer_instance

instance (op : Operator) (e : Expr) (span : Span) : Still (unary op e span) := by
  unfold unary; infer_instance

instance (op : Operator) (e : Expr) (span : Span) : Still (step op e span) := by
  unfold step; infer_instance

instance (c t f : Expr) : Still (conditional c t f) := by
  refine @bind _ _ _ _ inferInstance fun c => ?_
  dsimp only
  repeat' split
  all_goals infer_instance

instance (n : Nat) (span : Span) : Still (reference n span) := by
  refine @bind _ _ _ _ inferInstance fun c => ?_
  dsimp only
  split <;> infer_instance

instance (block field : Nat) (span : Span) : Still (anonymousField block field span) := by
  unfold anonymousField; infer_instance

instance (b i : Expr) (span : Span) : Still (index b i span) := by
  unfold index; repeat' split
  all_goals infer_instance

lemma occasion_components {mask : String} {rows : Nat} {set : Option Nat} {found : List (Fin 4)}
    {letters : List Char}
    {p : Problem} (h : components mask rows set found letters = .error p) : p.occasion.Is .passing := by
  fun_induction components mask rows set found letters with
  | case1 => cases h
  | case5 _ _ _ _ _ _ _ _ _ ih => exact ih h
  | _ =>
    cases h
    infer_instance

instance (b : Expr) (mask : String) (span : Span) : Still (swizzle b mask span) := by
  unfold swizzle
  dsimp only
  split
  · infer_instance
  · split
    · have := occasion_components ‹_›
      infer_instance
    · split <;> infer_instance

instance (b : Expr) (name : String) (span : Span) : Still (field b name span) := by
  unfold field
  dsimp only
  repeat' split
  all_goals infer_instance

instance (e : Expr) (ty : Ty) (out : Bool) : Still (passArgument e ty out) := by
  unfold passArgument; infer_instance

instance (f : Function) (types : List Ty) (es : List Expr) : Still (passArguments f types es) := by
  unfold passArguments; infer_instance

instance (n : Nat) (span : Span) : Still (noteCall n span) := by
  have hcalls (c : Context) : (noteCall n span c).2 =
    { c with calls := if c.functions.isBase n then c.calls else (n, span) :: c.calls } := by
    change (if c.functions.isBase n then c else { c with calls := (n, span) :: c.calls }) = _
    split <;> rfl
  exact @mk _ _ (.of_scopes fun c => ⟨c.scopes, _, hcalls c⟩) (fun c => by rw [hcalls]) fun c => by rw [hcalls]

instance (name : String) (overloads : List Nat) (es : List Expr) (span : Span) :
    Still (call name overloads es span) := by
  unfold call
  split
  · infer_instance
  · refine @bind _ _ _ _ inferInstance fun c => ?_
    split <;> infer_instance

instance (e : Expr) (ty : Ty) (span : Span) : Still (castWhole e ty span) := by unfold castWhole; infer_instance

instance castComponents (ty : Ty) (done : List Expr) (count : Nat) (es : List Expr) :
    Still (castComponents ty done count es) := by
  induction es generalizing done count with
  | nil => unfold Check.castComponents; infer_instance
  | cons e es ih =>
    unfold Check.castComponents
    repeat' split
    all_goals infer_instance

instance (ty : Ty) (es : List Expr) (span : Span) : Still (compound ty es span) := by
  refine @bind _ _ _ _ inferInstance fun cast => ?_
  split <;> infer_instance

lemma of_fromSingle? {ty : Ty} {e : Expr} {span : Span} {m : Check Expr} (h : fromSingle? ty e span = some m) :
    Still m := by
  unfold fromSingle? at h
  dsimp only at h
  repeat' split at h
  all_goals simp only [Option.some.injEq, reduceCtorEq] at h
  all_goals subst h
  all_goals infer_instance

instance (ty : Ty) (es : List Expr) (span : Span) : Still (vectorOrMatrix ty es span) := by
  unfold vectorOrMatrix
  split
  · cases h : fromSingle? ty _ span with
    | none => rw [Option.getD_none]; infer_instance
    | some m => rw [Option.getD_some]; exact of_fromSingle? h
  · infer_instance

instance (ty : Ty) (fault : ArgumentFault) (span : Span) : Still (badArguments ty fault span) := by
  unfold badArguments; infer_instance

instance (ty : Ty) (size : Option Nat) (es : List Expr) (span : Span) :
    Still (arrayConstructor ty size es span) := by
  unfold arrayConstructor
  dsimp only
  repeat' split
  all_goals infer_instance

instance (ty : Ty) (fields : List (Field Ty)) (es : List Expr) (span : Span) :
    Still (structConstructor ty fields es span) := by
  unfold structConstructor; infer_instance

instance (ty : Ty) (es : List Expr) (span : Span) : Still (scalarConstructor ty es span) := by
  unfold scalarConstructor; split <;> infer_instance

instance (ty : Ty) (es : List Expr) (span : Span) : Still (constructor ty es span) := by
  unfold constructor
  repeat' split
  all_goals infer_instance

instance (m : Modifiers) (e : Option Expr) : Still (constantValue m e) := by
  unfold constantValue; split <;> infer_instance

instance (m : Modifiers) (name : String) (span : Span) (b : Bool) : Still (checkInitializer m name span b) := by
  unfold checkInitializer; split <;> infer_instance

instance (n : Nat) (ty : Ty) (name : String) (span : Span) (ps : List Parameter) :
    Still (redeclare n ty name span ps) := by
  unfold redeclare; infer_instance

instance checkUnsized (buffer : Bool) (fields : List (Field Ty)) : Still (checkUnsized buffer fields) := by
  induction fields with
  | nil => unfold Check.checkUnsized; infer_instance
  | cons f fs ih => unfold Check.checkUnsized; infer_instance

end Still

namespace KeepsJournal

instance (name : String) (symbol : Symbol) (span : Span) : KeepsJournal (bindName name symbol span) := by
  unfold bindName; infer_instance

instance (m : Modifiers) (ty : Ty) (name : String) (span : Span) (e : Option Expr) (storage : Storage) :
    KeepsJournal (declareVariable m ty name span e storage) := by
  unfold declareVariable
  refine @bind _ _ _ _ inferInstance fun _ => @bind _ _ _ _ inferInstance fun _ =>
    @bind _ _ _ _ inferInstance fun _ => ?_
  refine @bind _ _ _ _ inferInstance fun _ => @bind _ _ _ _ inferInstance fun _ =>
    @bind _ _ _ _ inferInstance fun _ => ?_
  infer_instance

instance (m : Modifiers) (ty : Ty) (name : String) (span : Span) (ps : List Parameter) :
    KeepsJournal (declareFunction m ty name span ps) := by
  refine @bind _ _ _ _ inferInstance fun c => ?_
  split
  · infer_instance
  · exact @bind _ _ _ _ (.of_functions fun {c} _ _ hf => ⟨_, c.functions.get?_push _ hf, rfl⟩) inferInstance

instance (n : Nat) (name : String) (span : Span) : KeepsJournal (markDefined n name span) := by
  refine @bind _ _ _ _ inferInstance fun c => ?_
  split
  · infer_instance
  · refine @bind _ _ _ _ (.of_functions fun {c} _ _ hf => ?_) inferInstance
    exact (c.functions.get?_modify_cases n _ hf).elim (fun hsame => ⟨_, hsame, rfl⟩) fun hdefined =>
      ⟨_, hdefined, rfl⟩

end KeepsJournal

lemma tryBind_eq (name : String) (symbol : Symbol) (c : Context) : tryBind name symbol c =
    match c.scopes.insert? name symbol with
    | some scopes => (true, { c with scopes })
    | none => (false, c) := by
  change (match c.scopes.insert? name symbol with
    | some scopes => do modify fun c => { c with scopes }; return true
    | none => return false : Check Bool) c = _
  cases c.scopes.insert? name symbol <;> rfl

lemma bindName_eq (name : String) (symbol : Symbol) (span : Span) (c : Context) : bindName name symbol span c =
    match c.scopes.insert? name symbol with
    | some scopes => (true, { c with scopes })
    | none => (false, (report (.duplicateSymbol name) span c).2) := by
  change ((tryBind name symbol c).1, (reportIf (!(tryBind name symbol c).1) (.duplicateSymbol name)
    span (tryBind name symbol c).2).2) = _
  rw [tryBind_eq]
  cases c.scopes.insert? name symbol <;> rfl

lemma not_clean_report {p : Problem} {span : Span} {c : Context} : ¬ (report p span c).2.journal.Clean := by
  intro h
  have hproblem : Journal.hasProblems (.problemFound ⟨p, span⟩ :: c.journal) = false := h
  simp [Journal.hasProblems, Event.report?] at hproblem

end Check
end Shading
