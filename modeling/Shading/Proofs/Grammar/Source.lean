import Mathlib
import Shading.Compilation
import Shading.Proofs.Grammar.Declaration

/-! A source in which nothing is wrong becomes a sound program. -/
namespace Shading

/-! ### Words -/

/-- Only the end of the source has no spelling. -/
def Token.IsSpelled (t : Token) : Prop := t.kind ≠ .endOfFile → t.lexeme ≠ []

lemma Scan.isSpelled_of_mem_loop {offset : Nat} {cs : List Char} {found : Array Token}
    (hfound : ∀ t ∈ found, t.IsSpelled) :
    ∀ t ∈ loop offset cs found, t.IsSpelled := by
  fun_induction loop offset cs found with
  | case1 offset found =>
    intro t ht
    obtain ht | rfl := Array.mem_push.mp ht
    · exact hfound t ht
    · exact fun h => absurd rfl h
  | case2 offset found c rest ih =>
    refine ih fun t ht => ?_
    obtain ht | rfl := Array.mem_push.mp ht
    · exact hfound t ht
    · exact fun _ => munch_ne_nil c rest

lemma Word.sound_ofToken {before : List Report} {t : Token} (ht : t.IsSpelled) :
    (Word.ofToken before t).Sound := by
  intro hkind
  have hne : t.kind ≠ .endOfFile := by
    rintro h
    simp [ofToken, h] at hkind
  have htext : (ofToken before t).text = t.text := by
    unfold ofToken
    split <;> rfl
  rw [htext, Token.text, String.toList_ofList]
  exact ht hne

/-- Every word comes from a token, and the reports before it from tokens that are no words. -/
lemma Word.exists_of_mem_ofTokens {tokens : Array Token} {w : Word} (hw : w ∈ Word.ofTokens tokens) :
    ∃ t ∈ tokens, ∃ before, w = ofToken before t ∧ ∀ r ∈ before, ∃ u, r = rejection u := by
  rw [ofTokens, ← Array.foldl_toList] at hw
  let Good (r : Array Word × List Report) : Prop :=
    (∀ w ∈ r.1, ∃ t ∈ tokens, ∃ before, w = ofToken before t ∧ ∀ r ∈ before, ∃ u, r = rejection u) ∧
      ∀ q ∈ r.2, ∃ u, q = rejection u
  refine (List.foldlRecOn (motive := Good) tokens.toList _
    ⟨fun _ h => absurd h (Array.not_mem_empty _), List.forall_mem_nil _⟩
    (fun r hr t ht => ?_)).1 w (Array.mem_toList_iff.mp hw)
  obtain ⟨words, before⟩ := r
  dsimp only
  split
  · exact hr
  split
  · exact ⟨hr.1, List.forall_mem_cons.mpr ⟨⟨t, rfl⟩, hr.2⟩⟩
  · refine ⟨fun w hw => ?_, List.forall_mem_nil _⟩
    obtain hw | rfl := Array.mem_push.mp hw
    · exact hr.1 w hw
    · exact ⟨t, Array.mem_toList_iff.mp ht, before, rfl, hr.2⟩

lemma Word.sound_of_mem_ofTokens {tokens : Array Token} (htokens : ∀ t ∈ tokens, t.IsSpelled) :
    ∀ w ∈ Word.ofTokens tokens, w.Sound := by
  intro w hw
  obtain ⟨t, ht, before, rfl, -⟩ := exists_of_mem_ofTokens hw
  exact sound_ofToken (htokens t ht)

lemma Word.isName_of_mem_ofTokens {tokens : Array Token}
    (htokens : ∀ t ∈ tokens, t.kind = .identifier → IsName t.text) {w : Word}
    (hw : w ∈ Word.ofTokens tokens) (hkind : w.kind = .identifier) (hnotes : w.notes = []) : IsName w.text := by
  obtain ⟨t, ht, before, rfl, -⟩ := exists_of_mem_ofTokens hw
  by_cases hreserved : t.kind = .reserved
  · simp [ofToken, hreserved] at hnotes
  · have hword : ofToken before t = ⟨t.kind, t.text, t.span, before.reverse⟩ := by
      unfold ofToken
      split
      · exact absurd ‹_› hreserved
      · rfl
    rw [hword] at hkind ⊢
    exact htokens t ht hkind

namespace Grammar

/-! ### Whole programs -/

lemma checkCalls_clean {c0 c : Context} {reported : List Nat} {calls : List (Nat × Span)}
    (h : (checkCalls c0 reported calls c).2.journal.Clean) :
    (checkCalls c0 reported calls c).2 = c ∧ ∀ call ∈ calls, (c0.functionAt call.1).defined = true ∨
    call.1 ∈ reported := by
  induction calls generalizing reported with
  | nil => exact ⟨rfl, by simp⟩
  | cons call calls ih =>
    obtain ⟨f, span⟩ := call
    unfold checkCalls at h ⊢
    split at h
    · rename_i hf
      rw [if_pos hf]
      refine ⟨(ih h).1, List.forall_mem_cons.mpr ⟨by simpa using hf, (ih h).2⟩⟩
    · exact (Check.not_clean_report (h.of_suffix closes_checkCalls.precedes.journal)).elim

lemma closing_clean {stop : Nat} {s t : State} (h : closing stop s = .ok () t) (hclean : t.context.journal.Clean) :
    t = s ∧ ∀ call ∈ s.context.calls, (s.context.functionAt call.1).defined = true := by
  cases h
  obtain ⟨hend, hcalls⟩ := checkCalls_clean hclean
  rw [hend] at hclean ⊢
  unfold Check.reportIf at hclean hcalls ⊢
  split at hclean
  · exact (Check.not_clean_report hclean).elim
  · rename_i hmain
    simp only [if_neg hmain] at hcalls ⊢
    exact ⟨rfl, fun call hcall => (hcalls call (List.mem_reverse.mpr hcall)).resolve_right List.not_mem_nil⟩

/-- Before the first word nothing has been declared but what is part of the language. -/
lemma sound_start {words : List Word} {c : Context} (hwords : ∀ w ∈ words, w.Sound)
    (hvariables : c.variables = #[])
    (hbase : c.functions.base = Intrinsic.signatures.toArray) (hitems : c.functions.items = #[])
    (hscopes : c.scopes = {}) :
    (start words c).Sound := by
  have hc : c.Sound := by
    refine ⟨fun hv => ?_, hbase, ?_, ?_⟩
    · simp [hvariables] at hv
    · simp [hitems]
    · simp [hscopes]
  cases words with
  | nil =>
    exact ⟨hc, by simp [start, Word.Sound], by simp [start], by simp [start, State.definitions],
      by simp [start, State.definitions]⟩
  | cons w ws =>
    exact ⟨hc, hwords, by simp [start], by simp [start, State.definitions], by simp [start, State.definitions]⟩

/-- At the end of a program in which nothing is wrong, what is called has a body. -/
lemma program_clean {v : View} {parts : Parts} [parts.Sound] {stop : Nat} {s t : State}
    (hrun : program parts stop s = .ok () t)
    (hclean : t.context.journal.Clean) (hfinal : v.isFull → t.context.Precedes v.final) (hs : s.Good v) :
    t.Good v ∧ s ≤ t ∧ ∀ n, t.declared.callable n → t.context.functions.isBase n = true ∨
    t.declared.IsDefined n := by
  rw [program_eq, KeepsJournal.bind_eq] at hrun
  cases hm : declarations parts parts.fuel s with
  | error e u =>
    rw [hm] at hrun
    cases hrun
  | ok a u =>
    rw [hm] at hrun
    obtain ⟨rfl, hcalls⟩ := closing_clean hrun hclean
    obtain ⟨hu, hle, -⟩ := declarations_ensures a t hm hclean hfinal hs
    refine ⟨hu, hle, fun n hn => hn.imp_right fun ⟨span, hspan⟩ => ?_⟩
    have hdefined := hcalls (n, span) hspan
    unfold Context.functionAt at hdefined
    cases hf : t.context.functions.get? n with
    | none =>
      rw [hf] at hdefined
      cases hdefined
    | some f =>
      rw [hf] at hdefined
      exact ⟨f, hf, hdefined⟩

instance (count : Nat) : (partsFor count).Sound := sound_statements

/-- The state in which the reading of a source begins. -/
def beginning (source : String) (kind : ShaderKind) (options : CompileOptions) : State :=
  start (Word.ofTokens (tokenize source)) { Context.initial kind options with
    journal := .readingStarted source.utf8ByteSize kind :: (Context.initial kind options).journal }

variable {source : String} {kind : ShaderKind} {options : CompileOptions}

lemma context_beginning :
    (beginning source kind options).context = { Context.initial kind options with
      journal := .readingStarted source.utf8ByteSize kind :: (Context.initial kind options).journal } := by
  unfold beginning start
  split <;> rfl

lemma words_beginning {w : Word}
    (hw : w ∈ (beginning source kind options).front :: (beginning source kind options).rest) :
    w ∈ Word.ofTokens (tokenize source) ∨ w = ⟨.endOfFile, "", .point 0, []⟩ := by
  unfold beginning start at hw
  split at hw
  · exact .inr (List.mem_singleton.mp hw)
  · exact .inl (‹_ = _› ▸ hw)

lemma finish_eq (source : String) (kind : ShaderKind) (options : CompileOptions) :
    finish source kind options =
      after (program (partsFor (Word.ofTokens (tokenize source)).length) source.utf8ByteSize)
      (beginning source kind options) := by
  unfold finish after
  dsimp only [EStateM.run]
  split <;> rename_i hrun <;> exact (hrun ▸ rfl)

/-- Reads the declarations of a source. -/
def reading (source : String) : Parse Unit :=
  let parts := partsFor (Word.ofTokens (tokenize source)).length
  declarations parts parts.fuel

instance (source : String) : KeepsJournal (reading source) := Widens.declarations _ _

lemma finish_eq_after_reading (source : String) (kind : ShaderKind) (options : CompileOptions) :
    finish source kind options =
    after (reading source >>= fun _ => closing source.utf8ByteSize) (beginning source kind options) :=
  finish_eq source kind options

lemma kind_finish :
    (finish source kind options).context.kind = kind := by
  have hread := KeepsJournal.precedes (m := reading source) (beginning source kind options)
  have hkind : (beginning source kind options).context.kind = kind := by rw [context_beginning]; rfl
  rw [finish_eq_after_reading, KeepsJournal.after_bind]
  cases hrun : reading source (beginning source kind options) with
  | error e t =>
    rw [after_error hrun] at hread
    exact hread.kind.symm.trans hkind
  | ok a t =>
    obtain ⟨c, hcloses, hclosing⟩ := closes_closing source.utf8ByteSize t
    rw [after_ok hrun] at hread
    dsimp only
    rw [after_ok hclosing]
    exact (hread.kind.trans hcloses.precedes.kind).symm.trans hkind

lemma sound_beginning : (beginning source kind options).Sound :=
  sound_start (Word.sound_of_mem_ofTokens (Scan.isSpelled_of_mem_loop (by simp))) rfl rfl rfl rfl

/-- Before the first word nothing is there that might not be regular, and the words are names. -/
lemma good_beginning {v : View} : (beginning source kind options).Good v := by
  refine ⟨sound_beginning, fun _ => ?_, fun _ => ?_, fun _ _ w hw hkind hnotes => ?_⟩
  · rw [context_beginning]
    refine ⟨fun hv => ?_, fun hf => ?_, ?_⟩
    · simp [Context.initial] at hv
    · simp [Context.initial] at hf
    · simp [Context.initial]
  · unfold beginning start
    split <;> simp
  · obtain hw | rfl := words_beginning hw
    · exact Word.isName_of_mem_ofTokens (Scan.isName_of_mem_loop (by simp)) hw hkind hnotes
    · cases hkind

/-- After a source in which nothing is wrong, what is called is part of the language or among the
definitions. -/
lemma finish_clean
    (hclean : (finish source kind options).context.journal.Clean) :
    (finish source kind options).Good ⟨True, (finish source kind options).context⟩ ∧
    ∀ n, (finish source kind options).declared.callable n →
      (finish source kind options).context.functions.isBase n = true ∨
      n ∈ (finish source kind options).definitions := by
  have hbase {n : Nat} (hn : (beginning source kind options).declared.IsDefined n) :
      (Context.initial kind options).functions.isBase n = true := by
    obtain ⟨f, hf, -⟩ := hn
    unfold State.declared at hf
    rw [context_beginning] at hf
    change (Context.initial kind options).functions.get? n = some f at hf
    unfold Arena.get? at hf
    split at hf
    · exact decide_eq_true ‹_›
    · cases hf
  rw [finish_eq] at hclean ⊢
  cases hrun : program (partsFor (Word.ofTokens (tokenize source)).length) source.utf8ByteSize
    (beginning source kind options) with
  | error e t =>
    rw [after_error hrun] at hclean
    exact (KeepsJournal.error (error_program.mp hrun) hclean).elim
  | ok a t =>
    rw [after_ok hrun] at hclean ⊢
    obtain ⟨ht, hle, hcalls⟩ := program_clean (v := ⟨True, t.context⟩) hrun hclean
      (fun _ => .refl _) good_beginning
    refine ⟨ht, fun n hn => (hcalls n hn).elim .inl fun hn => (hle.finished hn).imp_left fun hn => ?_⟩
    rw [Arena.isBase, ht.context.base]
    exact hbase hn

end Grammar

/-- A program in which nothing is wrong. -/
structure Program.Sound (p : Program) : Prop where
  variable_ : ∀ {n : Nat} {v}, p.variables[n]? = some v → v.Sound
  base : p.functions.base = Intrinsic.signatures.toArray
  items : ∀ f ∈ p.functions.items, f.intrinsic = none ∧ f.Sound
  elements : ∀ e ∈ p.elements, e.WellTyped p.declared
  definitions : (p.elements.filterMap Element.defined?).Nodup

namespace Program

variable {source : String} {kind : ShaderKind} {options : CompileOptions} {p : Program}

lemma read_of_parse (h : (Program.parse source kind options).result = .ok p) :
    (Program.read source kind options).1 = some p := by
  unfold Program.parse at h
  dsimp only at h
  split at h
  · cases h
  split at h
  · rename_i hread
    rw [hread, Except.ok.inj h]
  · cases h

/-- The program is what has been read at the end of its source, and nothing was wrong with it. -/
def IsRead (source : String) (kind : ShaderKind) (options : CompileOptions) (p : Program) : Prop :=
  let s := Grammar.finish source kind options
  s.context.journal.Clean ∧ p =
    ⟨kind, options, s.context.types, s.context.variables, s.context.functions, s.context.scopes,
      s.elements.reverse⟩

lemma isRead_of_read (h : (Program.read source kind options).1 = some p) : IsRead source kind options p := by
  unfold Program.read at h
  dsimp only at h
  split at h
  · cases h
  · rename_i hclean
    exact ⟨by simpa [Journal.Clean] using hclean, (Option.some.inj h).symm⟩

lemma sound_of_read (h : (Program.read source kind options).1 = some p) : p.Sound := by
  obtain ⟨hclean, rfl⟩ := isRead_of_read h
  obtain ⟨ht, hcalls⟩ := Grammar.finish_clean hclean
  have hdefinitions (es : List Element) : es.reverse.filterMap Element.defined? =
    (es.filterMap Element.defined?).reverse :=
    List.filterMap_reverse
  refine ⟨ht.context.variable_, ht.context.base, ht.context.items, fun e he =>
    (ht.elements e (List.mem_reverse.mp he)).grow ?_, ?_⟩
  · refine ⟨fun h => h, fun {_ f} h => ⟨f.defined, h, fun hb => hb⟩, fun {n} hn =>
      (hcalls n hn).imp_right fun hn => ?_⟩
    rw [hdefinitions]
    exact List.mem_reverse.mpr hn
  · rw [hdefinitions]
    exact List.nodup_reverse.mpr ht.definitions

lemma isRead_of_parse (h : (Program.parse source kind options).result = .ok p) : IsRead source kind options p :=
  isRead_of_read (read_of_parse h)

lemma sound_of_parse (h : (Program.parse source kind options).result = .ok p) : p.Sound :=
    sound_of_read (read_of_parse h)

/-- What the tables of an accepted program say of what it holds. The context is the one at the end
of reading. -/
structure Regular (p : Program) (o : Context) : Prop where
  kind : p.kind = o.kind
  clean : o.journal.Clean
  «variables» : p.variables = o.variables
  functions : p.functions = o.functions
  types : p.types = o.types
  context : o.Regular o
  elements : ∀ e ∈ p.elements, e.Regular o

lemma exists_regular_of_parse (h : (Program.parse source kind options).result = .ok p) : ∃ o, p.Regular o := by
  obtain ⟨hclean, rfl⟩ := isRead_of_parse h
  obtain ⟨hgood, -⟩ := Grammar.finish_clean hclean
  exact ⟨_, Grammar.kind_finish.symm, hclean, rfl, rfl, rfl, hgood.regular trivial,
    fun e he => hgood.regularElements trivial e (List.mem_reverse.mp he)⟩

end Program
end Shading
