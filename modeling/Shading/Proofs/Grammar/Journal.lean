import Shading.Grammar.Source
import Shading.Proofs.Check.Journal

/-! Reading never takes back what has been reported either, and it stops only after a report: the
one report of a place that breaks the grammar, with which the journal ends. -/
namespace Shading

/-- The last report was made where reading stopped, and all others on the way. -/
def Journal.IsFatal (j : Journal) : Prop := ∃ e older, j = e :: older ∧ e.occasion = .fatal ∧
    Journal.IsPassing older

namespace Grammar

/-- What has been reported was found on the way, and so is what the words to come bring with
them. -/
structure State.IsPassing (s : State) : Prop where
  journal : s.context.journal.IsPassing
  words : ∀ w ∈ s.front :: s.rest, ∀ r ∈ w.notes, r.problem.occasion = .passing

variable {α β : Type}

/-- The state that a step leaves behind, whether it goes on or stops. -/
def after (m : Parse α) (s : State) : State :=
  match m s with
  | .ok _ t | .error _ t => t

/-- The step only adds to the journal and to the tables. It stops only after a report, and only then
is what it reports not found on the way. -/
class KeepsJournal (m : Parse α) : Prop where
  precedes : ∀ s : State, s.context.Precedes (after m s).context
  error : ∀ {s e t}, m s = .error e t → ¬ t.context.journal.Clean
  passing : ∀ {s a t}, m s = .ok a t → s.IsPassing → t.IsPassing
  fatal : ∀ {s e t}, m s = .error e t → s.IsPassing → t.context.journal.IsFatal

variable {m : Parse α} {s : State}

lemma after_ok {t : State} {a : α} (h : m s = .ok a t) : after m s = t := by
  unfold after
  rw [h]

lemma after_error {t : State} {e : Stop} (h : m s = .error e t) : after m s = t := by
  unfold after
  rw [h]

namespace KeepsJournal

lemma ok [hm : KeepsJournal m] {t : State} {a : α} (h : m s = .ok a t) :
    s.context.journal <:+ t.context.journal :=
  after_ok h ▸ (hm.precedes s).journal

lemma of_ok (h : ∀ s, ∃ a t, m s = .ok a t ∧ s.context.Precedes t.context ∧ (s.IsPassing → t.IsPassing)) :
    KeepsJournal m where
  precedes s := by
    obtain ⟨a, t, hrun, hprecedes, -⟩ := h s
    rwa [after_ok hrun]
  error {s e t} herror := by
    obtain ⟨a', t', hrun, -⟩ := h s
    rw [hrun] at herror
    cases herror
  passing {s a t} hok := by
    obtain ⟨a', t', hrun, -, hpassing⟩ := h s
    rw [hrun] at hok
    cases hok
    exact hpassing
  fatal {s e t} herror := by
    obtain ⟨a', t', hrun, -⟩ := h s
    rw [hrun] at herror
    cases herror

instance (a : α) : KeepsJournal (pure a : Parse α) := .of_ok fun s => ⟨a, s, rfl, .refl _, fun hs => hs⟩

lemma bind_eq {f : α → Parse β} :
    (m >>= f) s = match m s with | .ok a t => f a t | .error e t => .error e t := by
  change EStateM.bind m f s = _
  unfold EStateM.bind
  cases m s <;> rfl

lemma after_bind {f : α → Parse β} :
    after (m >>= f) s = match m s with | .ok a t => after (f a) t | .error _ t => t := by
  unfold after
  rw [bind_eq]
  cases m s <;> rfl

instance bind (m : Parse α) (f : α → Parse β) [hm : KeepsJournal m] [hf : ∀ a, KeepsJournal (f a)] :
    KeepsJournal (m >>= f) where
  precedes s := by
    have hfirst := hm.precedes s
    rw [after_bind]
    cases hrun : m s with
    | ok a t =>
      rw [after_ok hrun] at hfirst
      exact hfirst.trans ((hf a).precedes t)
    | error e t => rwa [after_error hrun] at hfirst
  error {s e u} h := by
    rw [bind_eq] at h
    cases hrun : m s with
    | ok a t =>
      rw [hrun] at h
      exact (hf a).error h
    | error e' t =>
      rw [hrun] at h
      cases h
      exact hm.error hrun
  passing {s b u} h hs := by
    rw [bind_eq] at h
    cases hrun : m s with
    | ok a t =>
      rw [hrun] at h
      exact (hf a).passing h (hm.passing hrun hs)
    | error e t =>
      rw [hrun] at h
      cases h
  fatal {s e u} h hs := by
    rw [bind_eq] at h
    cases hrun : m s with
    | ok a t =>
      rw [hrun] at h
      exact (hf a).fatal h (hm.passing hrun hs)
    | error e' t =>
      rw [hrun] at h
      cases h
      exact hm.fatal hrun hs

instance (f : α → β) (m : Parse α) [hm : KeepsJournal m] : KeepsJournal (f <$> m) :=
  inferInstanceAs (KeepsJournal (m >>= fun a => Pure.pure (f a)))

instance (p : Prop) [Decidable p] (m n : Parse α) [hm : KeepsJournal m] [hn : KeepsJournal n] :
    KeepsJournal (if p then m else n) := by
  split <;> assumption

instance lift (m : Check α) [hm : Check.KeepsJournal m] : KeepsJournal (lift m) :=
  .of_ok fun s => ⟨_, _, rfl, hm.precedes s.context, fun hs => ⟨hm.passing _ hs.journal, hs.words⟩⟩

instance (m : Check α) [hm : Check.KeepsJournal m] : KeepsJournal (liftM m : Parse α) := lift m

instance : KeepsJournal (get : Parse State) := .of_ok fun s => ⟨s, s, rfl, .refl _, fun hs => hs⟩

lemma suffix_foldl (notes : List Report) (j : Journal) :
    j <:+ notes.foldl (fun j r => .problemFound r :: j) j := by
  induction notes generalizing j with
  | nil => exact List.suffix_rfl
  | cons r notes ih => exact (List.suffix_cons _ j).trans (ih _)

lemma passing_foldl {notes : List Report} {j : Journal}
    (hnotes : ∀ r ∈ notes, r.problem.occasion = .passing) (hj : j.IsPassing) :
    Journal.IsPassing (notes.foldl (fun j r => .problemFound r :: j) j) := by
  induction notes generalizing j with
  | nil => exact hj
  | cons r notes ih =>
    obtain ⟨hr, hnotes⟩ := List.forall_mem_cons.mp hnotes
    exact ih hnotes (hj.cons hr)

instance : KeepsJournal peek := .of_ok fun s => by
  refine ⟨_, _, rfl, ?_, fun hs => ?_⟩
  · exact ⟨rfl, suffix_foldl s.front.notes s.context.journal, .refl _, fun h => h, fun hf => ⟨_, hf, rfl⟩⟩
  · obtain ⟨hfront, hrest⟩ := List.forall_mem_cons.mp hs.words
    exact ⟨passing_foldl hfront hs.journal, List.forall_mem_cons.mpr ⟨List.forall_mem_nil _, hrest⟩⟩

instance : KeepsJournal advance := .of_ok fun s => by
  unfold advance
  cases hrest : s.rest with
  | nil => exact ⟨_, _, rfl, .refl _, fun hs => hs⟩
  | cons w ws => exact ⟨_, _, rfl, .refl _, fun hs => ⟨hs.journal, fun v hv => hs.words v (hrest ▸ .tail _ hv)⟩⟩

instance : KeepsJournal lastEnd := .of_ok fun _ => ⟨_, _, rfl, .refl _, fun hs => hs⟩

instance (problem : Problem) (span : Span) [hproblem : problem.occasion.Is .fatal] :
    KeepsJournal (stop problem span : Parse α) where
  precedes s := Check.KeepsJournal.precedes_note _ s.context
  error {s e t} h := by
    obtain rfl : { s with context := (Check.report problem span s.context).2 } = t := by cases h; rfl
    exact Check.not_clean_report
  passing h := by cases h
  fatal {s e t} h hs := by
    obtain rfl : { s with context := (Check.report problem span s.context).2 } = t := by cases h; rfl
    exact ⟨_, _, rfl, hproblem.eq, hs.journal⟩

end KeepsJournal

/-- Between the states the declarations, the names in scope and the functions have stayed. -/
structure State.Stays (s t : State) : Prop where
  elements : t.elements = s.elements
  scopes : t.context.scopes = s.context.scopes
  functions : t.context.functions = s.context.functions

lemma State.Stays.refl (s : State) : s.Stays s := ⟨rfl, rfl, rfl⟩

lemma State.Stays.trans {t u : State} (h : s.Stays t) (k : t.Stays u) : s.Stays u :=
  ⟨k.elements.trans h.elements, k.scopes.trans h.scopes, k.functions.trans h.functions⟩

lemma ok_bind {f : α → Parse β} {b : β} {u : State} (h : (m >>= f) s = .ok b u) : ∃ a t,
    m s = .ok a t ∧ f a t = .ok b u := by
  rw [KeepsJournal.bind_eq] at h
  cases hrun : m s with
  | ok a t =>
    rw [hrun] at h
    exact ⟨a, t, rfl, h⟩
  | error e t =>
    rw [hrun] at h
    cases h

/-- The step leaves the declarations, the names in scope and the functions alone as well. -/
class Still (m : Parse α) : Prop extends KeepsJournal m where
  stays : ∀ {s a t}, m s = .ok a t → s.Stays t

namespace Still

instance (a : α) : Still (pure a : Parse α) := ⟨fun h => by cases h; exact .refl _⟩

instance bind (m : Parse α) (f : α → Parse β) [hm : Still m] [hf : ∀ a, Still (f a)] : Still (m >>= f) where
  stays h := by
    obtain ⟨a, t, hrun, h⟩ := ok_bind h
    exact (hm.stays hrun).trans ((hf a).stays h)

instance (f : α → β) (m : Parse α) [Still m] : Still (f <$> m) :=
    inferInstanceAs (Still (m >>= fun a => Pure.pure (f a)))

instance (p : Prop) [Decidable p] (m n : Parse α) [hm : Still m] [hn : Still n] : Still (if p then m else n) := by
  split <;> assumption

instance lift (m : Check α) [hm : Check.Still m] : Still (lift m) where
  stays {s a t} h := by
    cases h
    exact ⟨rfl, hm.scopes s.context, hm.functions s.context⟩

instance (m : Check α) [Check.Still m] : Still (liftM m : Parse α) := lift m

instance : Still (get : Parse State) := ⟨fun h => by cases h; exact .refl _⟩

instance : Still peek := ⟨fun h => by cases h; exact ⟨rfl, rfl, rfl⟩⟩

instance : Still advance where
  stays {s a t} h := by
    unfold advance at h
    split at h <;> cases h <;> exact ⟨rfl, rfl, rfl⟩

instance : Still lastEnd := ⟨fun h => by cases h; exact .refl _⟩

instance (problem : Problem) (span : Span) [problem.occasion.Is .fatal] :
    Still (stop problem span : Parse α) := ⟨fun h => by cases h⟩

instance : Still next := by unfold next; infer_instance

instance (kind : TokenKind) : Still (looksAt kind) := by unfold looksAt; infer_instance

instance (kind : TokenKind) : Still (accept? kind) := by unfold accept?; infer_instance

instance (p : Punctuator) : Still (acceptMark p) := by unfold acceptMark; infer_instance

instance (w : Word) (expected : Expectation) : Still (unexpected w expected : Parse α) := by
  unfold unexpected; infer_instance

instance (kind : TokenKind) (expected : Expectation) : Still (expect kind expected) := by
  unfold expect; infer_instance

instance (p : Punctuator) : Still (expectMark p) := by unfold expectMark; infer_instance

instance : Still expectIdentifier := by unfold expectIdentifier; infer_instance

instance : Still (exhausted : Parse α) := by unfold exhausted; infer_instance

instance (start : Nat) : Still (spanFrom start) := by unfold spanFrom; infer_instance

instance (env : Surroundings) (opening : Word) (inside : Surroundings → Parse α) [∀ env, Still (inside env)] :
    Still (nested env opening inside) := by
  unfold nested; split <;> infer_instance

/-! ### Modifiers -/

instance (key : String) (w : Word) : Check.Still (layoutNumber key w) := by
  unfold layoutNumber; split <;> infer_instance

instance (key : String) : Still (layoutValue? key) := by unfold layoutValue?; infer_instance

instance (spec : LayoutSpec) (key : String) (value : Option Nat) (span : Span) :
    Check.Still (enterLayout spec key value span) := by
  unfold enterLayout
  repeat' split
  all_goals infer_instance

instance layoutKeys (n : Nat) (spec : LayoutSpec) (seen : List (String × Span)) :
    Still (layoutKeys n spec seen) := by
  induction n generalizing spec seen with
  | zero => unfold Grammar.layoutKeys; infer_instance
  | succ n ih => unfold Grammar.layoutKeys; infer_instance

instance (seen : List (String × Span)) (span : Span) (spec : LayoutSpec) (key : LayoutKey) :
    Check.Still (dropBoundKey seen span spec key) := by
  unfold dropBoundKey; infer_instance

instance (fuel : Nat) (spec : LayoutSpec) : Still (layoutGroup fuel spec) := by unfold layoutGroup; infer_instance

instance modifierWords (n : Nat) (m : Modifiers) (stop : Nat) : Still (modifierWords n m stop) := by
  induction n generalizing m stop with
  | zero => unfold Grammar.modifierWords; infer_instance
  | succ n ih =>
    unfold Grammar.modifierWords
    refine @bind _ _ _ _ inferInstance fun w => ?_
    repeat' split
    all_goals infer_instance

instance (fuel : Nat) : Still (modifiers fuel) := by unfold modifiers; infer_instance

/-! ### Expressions -/

/-- Inner expressions are read by steps of this kind. -/
class OfInner (inner : Inner) : Prop where
  whole : ∀ env, Still (inner.whole env)
  single : ∀ env, Still (inner.single env)

attribute [instance] OfInner.whole OfInner.single

instance (w : Word) : Check.Still (integerLiteral w) := by
  unfold integerLiteral; split <;> infer_instance

instance (w : Word) : Check.Still (floatLiteral w) := by unfold floatLiteral; infer_instance

instance (e : Expr) : Check.Still (arraySize e) := by
  unfold arraySize
  repeat' split
  all_goals infer_instance

instance wrap (span : Span) (ty : Ty) (found : List (Option Nat × Span)) : Check.Still (wrap span ty found) := by
  induction found generalizing ty with
  | nil => unfold Grammar.wrap; infer_instance
  | cons f found ih => unfold Grammar.wrap; infer_instance

variable (inner : Inner) [OfInner inner] (fuel : Nat) (env : Surroundings)

instance suffixes (n : Nat) (found : List (Option Nat × Span)) : Still (suffixes inner env n found) := by
  induction n generalizing found with
  | zero => unfold Grammar.suffixes; infer_instance
  | succ n ih =>
    unfold Grammar.suffixes
    refine @bind _ _ _ _ inferInstance fun w => ?_
    split <;> infer_instance

instance (ty : Ty) (span : Span) : Still (arraySuffixes inner fuel env ty span) := by
  unfold arraySuffixes; infer_instance

instance : Still (typeName inner fuel env) := by
  unfold typeName
  refine @bind _ _ _ _ inferInstance fun w => @bind _ _ _ _ inferInstance fun s => ?_
  dsimp only
  repeat' split
  all_goals infer_instance

instance argumentsFrom (n : Nat) (found : List Expr) : Still (argumentsFrom inner env n found) := by
  induction n generalizing found with
  | zero => unfold Grammar.argumentsFrom; infer_instance
  | succ n ih => unfold Grammar.argumentsFrom; infer_instance

instance : Still (arguments inner fuel env) := by unfold arguments; infer_instance

instance (w : Word) : Still (named inner fuel env w) := by
  unfold named
  refine @bind _ _ _ _ inferInstance fun s => ?_
  split <;> infer_instance

instance : Still (primary inner fuel env) := by
  unfold primary
  refine @bind _ _ _ _ inferInstance fun w => ?_
  split <;> infer_instance

instance trailers (n : Nat) (e : Expr) : Still (trailers inner env n e) := by
  induction n generalizing e with
  | zero => unfold Grammar.trailers; infer_instance
  | succ n ih =>
    unfold Grammar.trailers
    refine @bind _ _ _ _ inferInstance fun w => ?_
    split
    · refine @bind _ _ _ _ inferInstance fun _ => @bind _ _ _ _ inferInstance fun closing => ?_
      split <;> infer_instance
    all_goals infer_instance

instance : Still (trailing inner fuel env) := by unfold trailing; infer_instance

instance leading (room : Nat) : Still (leading inner fuel env room) := by
  induction room with
  | zero =>
    unfold Grammar.leading
    refine @bind _ _ _ _ inferInstance fun w => ?_
    split <;> infer_instance
  | succ room ih =>
    unfold Grammar.leading
    refine @bind _ _ _ _ inferInstance fun w => ?_
    split <;> infer_instance

instance chain (operand : Parse Expr) [Still operand] (level : Precedence) (n : Nat) (left : Expr) :
    Still (chain operand level n left) := by
  induction n generalizing left with
  | zero => unfold Grammar.chain; infer_instance
  | succ n ih =>
    unfold Grammar.chain
    refine @bind _ _ _ _ inferInstance fun w => ?_
    split <;> infer_instance

instance binaryLevels (levels : Nat) : Still (binaryLevels inner fuel env levels) := by
  induction levels with
  | zero => unfold Grammar.binaryLevels; infer_instance
  | succ levels ih => unfold Grammar.binaryLevels; infer_instance

instance : Still (conditional inner fuel env) := by unfold conditional; infer_instance

instance : Still (single inner fuel env) := by
  unfold single
  refine @bind _ _ _ _ inferInstance fun left => @bind _ _ _ _ inferInstance fun w => ?_
  split <;> infer_instance

instance sequence (n : Nat) (left : Expr) : Still (sequence inner fuel env n left) := by
  induction n generalizing left with
  | zero => unfold Grammar.sequence; infer_instance
  | succ n ih => unfold Grammar.sequence; infer_instance

instance expressions (n : Nat) : OfInner (expressions n) := by
  induction n with
  | zero =>
    unfold Grammar.expressions
    exact ⟨inferInstance, inferInstance⟩
  | succ n ih =>
    unfold Grammar.expressions
    exact ⟨inferInstance, inferInstance⟩

end Still
end Grammar
end Shading
