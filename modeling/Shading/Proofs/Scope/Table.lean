import Shading.Proofs.Place.Program
import Shading.Proofs.Scope.Gains

/-! What the scopes hold. Statements and functions leave them as they were, up to the name of a
function. So at the end of an accepted program there is only the global scope, and it holds what the
program declares at the global level. -/
namespace Shading

/-- The names that a declaration binds, with what they stand for. A block is known by the name of
its instance or, without one, by the names of its members. Functions are bound one by one, with the
other functions of their name. -/
def Element.Binds (variables_ : Array Variable) : Element → Bindings → Prop
  | .struct ty _, bs => bs = [(ty.name, .type ty)]
  | .global n _ _, bs => ∃ v, variables_[n]? = some v ∧ bs = [(v.name, .variable_ n)]
  | .block n _, bs => ∃ v, variables_[n]? = some v ∧ (bs = [(v.name, .variable_ n)] ∨
      v.name = "" ∧ ∃ fs, v.ty.fields? = some fs ∧ bs = fs.zipIdx.map fun (f, i) => (f.name, .field n i))
  | .prototype .., bs | .definition .., bs => bs = []

lemma Element.Binds.ne_functions {e : Element} {variables_ : Array Variable} {bs : Bindings}
    (h : e.Binds variables_ bs) :
    ∀ b ∈ bs, ∀ ns, b.2 ≠ .functions ns := by
  cases e with
  | struct ty span =>
    obtain rfl := h
    exact List.forall_mem_singleton.mpr nofun
  | global n e span =>
    obtain ⟨v, -, rfl⟩ := h
    exact List.forall_mem_singleton.mpr nofun
  | block n span =>
    obtain ⟨v, -, rfl | ⟨-, fs, -, rfl⟩⟩ := h
    · exact List.forall_mem_singleton.mpr nofun
    · exact List.forall_mem_map.mpr fun _ _ => nofun
  | prototype | definition =>
    obtain rfl := h
    exact List.forall_mem_nil _

lemma Element.Binds.grow {e : Element} {c d : Context} {bs : Bindings} (h : e.Binds c.variables bs)
    (hcd : c.Precedes d) :
    e.Binds d.variables bs := by
  cases e with
  | struct | prototype | definition => exact h
  | global | block =>
    obtain ⟨v, hv, h⟩ := h
    exact ⟨v, hcd.variable_ hv, h⟩

/-- The name of a function by its number. -/
def Arena.nameAt? (functions : Arena Function) (n : Nat) : Option String := (functions.get? n).map (·.name)

/-- The global scope holds the declarations and nothing else: every name stands for what a
declaration binds to it or for functions of that name, and all that is declared has its name. -/
structure Scopes.Lists (s : Scopes) (variables_ : Array Variable) (functions : Arena Function)
    (elements : List Element) : Prop where
  inner : s.inner = []
  symbols : ∀ name symbol, s.global.lookup name = some symbol → (∀ ns, symbol ≠ .functions ns) →
    ∃ e ∈ elements, ∃ bs, e.Binds variables_ bs ∧ (name, symbol) ∈ bs
  overloads : ∀ name ns, s.global.lookup name = some (.functions ns) →
    (∃ n ∈ ns, functions.isBase n = false) ∧ ∀ n ∈ ns, functions.isBase n = false → functions.nameAt? n = some name
  elements : ∀ e ∈ elements, ∃ bs, e.Binds variables_ bs ∧ ∀ b ∈ bs, s.global.lookup b.1 = some b.2
  functions : ∀ n name, functions.isBase n = false → functions.nameAt? n = some name →
    ∃ ns, s.global.lookup name = some (.functions ns) ∧ n ∈ ns

namespace Grammar

variable {α β : Type} {s t u : State} {bs : Bindings} {e : Element}

/-- The invariant of the reading of declarations, as long as nothing is wrong. -/
def State.Lists (s : State) : Prop := s.context.scopes.Lists s.context.variables s.context.functions s.elements ∧
  s.context.functions.base = Intrinsic.signatures.toArray

/-- The invariant is kept between the states. -/
structure State.KeepsLists (s t : State) : Prop where
  precedes : s.context.Precedes t.context
  lists : t.context.journal.Clean → s.Lists → t.Lists

lemma State.KeepsLists.trans (h : s.KeepsLists t) (k : t.KeepsLists u) : s.KeepsLists u :=
  ⟨h.precedes.trans k.precedes, fun hclean hs => k.lists hclean (h.lists (hclean.of_suffix k.precedes.journal) hs)⟩

lemma State.Enters.add (h : s.Enters bs t) (he : e.Binds t.context.variables bs) :
    s.KeepsLists { t with elements := e :: t.elements } := by
  refine ⟨h.precedes, fun hclean ⟨hs, hbase⟩ => ⟨?_, h.functions ▸ hbase⟩⟩
  have hgains := h.gains hclean hs.inner
  refine ⟨hgains.inner, fun name symbol hfound hsymbol => ?_, fun name ns hfound =>
    ?_, List.forall_mem_cons.mpr ⟨⟨bs, he, hgains.new⟩, ?_⟩, ?_⟩
  · obtain hold | hnew := hgains.only _ _ hfound
    · obtain ⟨e', he', cs, hbinds, hmem⟩ := hs.symbols _ _ hold hsymbol
      exact ⟨e', List.mem_cons_of_mem _ (h.elements ▸ he'), cs, hbinds.grow h.precedes, hmem⟩
    · exact ⟨e, List.mem_cons_self, bs, he, hnew⟩
  · rw [h.functions]
    exact hs.overloads name ns ((hgains.only _ _ hfound).resolve_right fun hnew => he.ne_functions _ hnew ns rfl)
  · rw [h.elements]
    intro e' he'
    obtain ⟨cs, hbinds, hcs⟩ := hs.elements e' he'
    exact ⟨cs, hbinds.grow h.precedes, fun b hb => hgains.old _ _ (hcs b hb)⟩
  · intro n name hown hname
    rw [h.functions] at hown hname
    obtain ⟨ns, hfound, hn⟩ := hs.functions n name hown hname
    exact ⟨ns, hgains.old _ _ hfound, hn⟩

/-- The scopes stay, and so do the functions up to what is known of their bodies. -/
lemma State.KeepsLists.of_same (helements : t.elements = s.elements)
    (hscopes : t.context.scopes = s.context.scopes)
    (hbase : t.context.functions.base = s.context.functions.base)
    (hnames : ∀ n, t.context.functions.nameAt? n = s.context.functions.nameAt? n)
    (hprecedes : s.context.Precedes t.context) :
    s.KeepsLists t := by
  have hisBase (n : Nat) : t.context.functions.isBase n = s.context.functions.isBase n := by
    rw [Arena.isBase, hbase, Arena.isBase]
  refine ⟨hprecedes, fun _ hold => ?_⟩
  obtain ⟨hs, hsbase⟩ := hold
  refine ⟨?_, hbase.trans hsbase⟩
  rw [hscopes, helements]
  refine ⟨hs.inner, fun name symbol hfound hsymbol => ?_, ?_, fun e he => ?_, ?_⟩
  · obtain ⟨e, he, bs, hbinds, hmem⟩ := hs.symbols name symbol hfound hsymbol
    exact ⟨e, he, bs, hbinds.grow hprecedes, hmem⟩
  · simpa only [hisBase, hnames] using hs.overloads
  · obtain ⟨bs, hbinds, hbs⟩ := hs.elements e he
    exact ⟨bs, hbinds.grow hprecedes, hbs⟩
  · simpa only [hisBase, hnames] using hs.functions

lemma State.Rests.keeps (h : s.Rests t) : s.KeepsLists t :=
  .of_same h.elements h.scopes (by rw [h.functions]) (fun _ => by rw [h.functions]) h.precedes

lemma State.keepsLists_add (he : e.Binds s.context.variables []) :
    s.KeepsLists { s with elements := e :: s.elements } :=
  (Rests.refl s).enters.add he

/-- The step keeps the invariant. -/
class KeepsLists (m : Parse α) : Prop where
  keeps : ∀ {s a t}, m s = .ok a t → s.KeepsLists t

namespace KeepsLists

instance (priority := low) (m : Parse α) [Still m] : KeepsLists m := ⟨fun h => (Steps.rest _ _ h).keeps⟩

instance bind (m : Parse α) (f : α → Parse β) [hm : KeepsLists m] [hf : ∀ a, KeepsLists (f a)] :
    KeepsLists (m >>= f) where
  keeps h := by
    obtain ⟨a, t, hrun, h⟩ := ok_bind h
    exact (hm.keeps hrun).trans ((hf a).keeps h)

instance (p : Prop) [Decidable p] (m n : Parse α) [hm : KeepsLists m] [hn : KeepsLists n] :
    KeepsLists (if p then m else n) := by
  split <;> assumption

lemma of_steps {m : Parse α} (h : ∀ s, Steps s m fun _ t => s.KeepsLists t) : KeepsLists m :=
    ⟨fun hrun => h _ _ _ hrun⟩

lemma steps {m : Parse α} [hm : KeepsLists m] (h : s.KeepsLists t) : Steps t m fun _ u => s.KeepsLists u :=
  fun _ _ hrun => h.trans (hm.keeps hrun)

end KeepsLists

/-! ### Variables, structs and blocks -/

variable {name : String} {span : Span} {mods : Modifiers} {ty : Ty}

lemma lists_addElement (h : s.Enters bs t) (he : e.Binds t.context.variables bs) :
    Steps t (addElement e) fun _ u => s.KeepsLists u := by
  rintro _ _ ⟨⟩
  exact h.add he

variable (parts : Parts) [Widens.OfParts parts] (start : Nat)

instance lists_globalDeclarators (mods : Modifiers) (ty : Ty) (n : Nat) (w : Word) :
    KeepsLists (globalDeclarators parts start mods ty n w) := by
  induction n generalizing w with
  | zero => exact inferInstanceAs (KeepsLists exhausted)
  | succ n ih =>
    refine .of_steps fun s => .still fun ty t1 h1 => .still fun b t2 h2 => .ite_still fun e t3 h3 => ?_
    refine .bind enters_declareVariable fun r t4 ⟨h4, v, hv, hname⟩ => .still fun span t5 h5 => ?_
    refine .bind (lists_addElement (((h1.trans (h2.trans h3)).enters.trans h4).rest h5) ?_)
      fun _ t6 h6 => KeepsLists.steps h6
    exact ⟨v, h5.precedes.variable_ hv, by rw [hname]; rfl⟩

instance (mods : Modifiers) (ty : Ty) (w : Word) : KeepsLists (globalVariables parts start mods ty w) := by
  unfold globalVariables; infer_instance

lemma rests_declareStruct {fields : List (Field Ty)} {block : Bool} :
    Steps s (liftM (Check.declareStruct name fields block)) fun ty t => s.Rests t ∧ ty.name = name ∧
    ty.fields? = some fields := by
  intro ty t h
  refine ⟨Steps.rest ty t h, ?_⟩
  cases h
  exact ⟨rfl, rfl⟩

instance lists_structDeclaration (mods : Modifiers) : KeepsLists (structDeclaration parts start mods) := by
  refine .of_steps fun s => .still fun _ t1 h1 => .still fun name t2 h2 => .still fun _ t3 h3 =>
    .still fun fields t4 h4 => ?_
  refine .still fun _ t5 h5 => .bind rests_declareStruct fun ty t6 ⟨h6, hty, _⟩ => .still fun _ t7 h7 => ?_
  refine .bind (enters_bindName nofun) fun _ t8 h8 => .still fun span t9 h9 => ?_
  have hbefore := h1.trans (h2.trans (h3.trans (h4.trans (h5.trans (h6.trans h7)))))
  exact .bind (lists_addElement ((hbefore.enters.trans h8).rest h9)
    (by rw [Element.Binds, hty]; rfl)) fun _ t10 h10 => KeepsLists.steps h10

variable {fields : List (Field Ty)}

lemma enters_bindFields {block : Nat} :
    Steps s (lift (bindFields block fields)) fun _ t =>
    s.Enters (fields.zipIdx.map fun (f, i) => (f.name, .field block i)) t := by
  have hall (fs : List (Field Ty × Nat)) (s : State) :
      Steps s (lift (fs.forM fun (f, i) => do let _ ← Check.bindName f.name (.field block i) f.span))
        fun _ t => s.Enters (fs.map fun (f, i) => (f.name, .field block i)) t := by
    induction fs generalizing s with
    | nil => exact .pure (State.Rests.refl s).enters
    | cons f fs ih =>
      have hbind : Steps s (lift (do let _ ← Check.bindName f.1.name (.field block f.2) f.1.span))
          fun _ t => s.Enters [(f.1.name, .field block f.2)] t :=
            .lift_bind (enters_bindName (by simp)) fun _ _ h => .pure h
      exact .lift_bind hbind fun _ t ht => .weaken (ih t) fun _ u hu => ht.trans hu
  exact hall _ s

lemma enters_declareBlock {w : Word} {named : Option (Word × Ty)} (hty : ty.fields? = some fields) :
    Steps s (lift (declareBlock mods w ty fields named)) fun n t =>
      ∃ bs, s.Enters bs t ∧ ∀ span, (Element.block n span).Binds t.context.variables bs := by
  unfold declareBlock
  split
  · refine .lift_bind enters_addVariable fun n t1 hpost => ?_
    obtain ⟨h1, hv⟩ := hpost
    refine .lift_bind (enters_bindName (by simp)) fun _ t2 h2 => ?_
    exact .pure ⟨_, h1.enters.trans h2, fun _ => ⟨_, h2.precedes.variable_ hv, .inl rfl⟩⟩
  · refine .lift_bind enters_addVariable fun n t1 hpost => ?_
    obtain ⟨h1, hv⟩ := hpost
    refine .lift_bind enters_bindFields fun _ t2 h2 => ?_
    exact .pure ⟨_, h1.enters.trans h2, fun _ => ⟨_, h2.precedes.variable_ hv, .inr ⟨rfl, fields, hty, rfl⟩⟩⟩

instance lists_interfaceBlock (mods : Modifiers) (w : Word) : KeepsLists (interfaceBlock parts start mods w) := by
  refine .of_steps fun s => .still fun _ t1 h1 => .still fun _ t2 h2 => .still fun fields t3 h3 =>
    .still fun _ t4 h4 => ?_
  refine .bind rests_declareStruct fun ty t5 ⟨h5, _, hty⟩ => .still fun named t6 h6 => .still fun _ t7 h7 => ?_
  refine .bind (enters_declareBlock hty) fun n t8 ⟨bs, h8, hbinds⟩ => .still fun span t9 h9 => ?_
  have hbefore := h1.trans (h2.trans (h3.trans (h4.trans (h5.trans (h6.trans h7)))))
  exact lists_addElement ((hbefore.enters.trans h8).rest h9) ((hbinds span).grow h9.precedes)

/-! ### Functions -/

variable {functions : Arena Function}

lemma nameAt?_push {f : Function} (h : functions.nameAt? n = some name) :
    (functions.push f).nameAt? n = some name := by
  obtain ⟨g, hg, rfl⟩ := Option.map_eq_some_iff.mp h
  rw [Arena.nameAt?, Arena.get?_push _ _ hg, Option.map_some]

lemma nameAt?_of_push {f : Function} (h : (functions.push f).nameAt? n = some name) :
    functions.nameAt? n = some name ∨ n = functions.next ∧ name = f.name := by
  obtain hlt | rfl | hgt := Nat.lt_trichotomy n functions.size
  · rw [Arena.nameAt?, Arena.get?_push_of_lt hlt] at h
    exact .inl h
  · have hnext : (functions.push f).get? functions.size = some f := Arena.get?_push_next ..
    rw [Arena.nameAt?, hnext] at h
    exact .inr ⟨rfl, (Option.some.inj h).symm⟩
  · have hnone : (functions.push f).get? n = none := by
      unfold Arena.size at hgt
      rw [Arena.get?, Arena.base_push, if_neg (by omega)]
      refine Array.getElem?_eq_none ?_
      rw [Arena.push, Array.size_push]
      omega
    rw [Arena.nameAt?, hnone] at h
    cases h

/-- A function joins the functions of its name, and otherwise those of the language. -/
lemma insert?_functions_of_global {s t : Shading.Scopes} {new : List Nat} (hinner : s.inner = [])
    (h : s.insert? name (.functions new) = some t) : ∃ old, t = s.bind name (.functions (old ++ new)) ∧
      (s.global.lookup name = some (.functions old) ∨ s.global.lookup name = none ∧
      ∀ n ∈ old, n < Intrinsic.signatures.length) := by
  have hcurrent : s.current = s.global := by rw [Scopes.current, hinner, List.headD_nil]
  unfold Scopes.insert? at h
  split at h
  · rename_i old _ hlookup hnew
    cases hnew
    cases h
    exact ⟨old, rfl, .inl (hcurrent ▸ hlookup)⟩
  · cases h
  · rename_i hlookup hnew
    cases hnew
    cases h
    refine ⟨_, rfl, .inr ⟨hcurrent ▸ hlookup, fun n hn => ?_⟩⟩
    unfold Scopes.joined at hn
    split at hn
    · rename_i hbuiltin
      rw [if_pos (by rw [Scopes.isGlobal, hinner]; rfl)] at hbuiltin
      obtain hmem | hmem := List.mem_append.mp (Scopes.lookup hbuiltin)
      · obtain ⟨ty, -, hmem⟩ := List.mem_flatMap.mp hmem
        obtain ⟨_, -, ⟨⟩⟩ := List.mem_map.mp hmem
      · obtain ⟨_, -, ⟨⟩⟩ := List.mem_map.mp hmem
        obtain ⟨⟨g, i⟩, hg, hsome⟩ := List.mem_filterMap.mp hn
        dsimp only at hsome
        split at hsome
        · cases hsome
          exact List.snd_lt_of_mem_zipIdx hg
        · cases hsome
    · cases hn
  · rename_i hnew
    exact absurd rfl (hnew _)

lemma exists_bind_of_insert? {s t : Shading.Scopes} {new : List Nat}
    (h : s.insert? name (.functions new) = some t) :
    ∃ ns, t = s.bind name (.functions ns) := by
  unfold Scopes.insert? at h
  split at h
  · cases h
    exact ⟨_, rfl⟩
  · cases h
  · cases h
    exact ⟨_, rfl⟩
  · rename_i hnew
    exact absurd rfl (hnew _)

lemma State.Lists.declare {f : Function} {scopes : Shading.Scopes} {journal : Journal} (hs : s.Lists)
    (hinsert : s.context.scopes.insert? f.name (.functions [s.context.functions.next]) = some scopes) :
    State.Lists { s with context := { s.context with functions := s.context.functions.push f, scopes, journal } }
    := by
  obtain ⟨hs, hbase⟩ := hs
  obtain ⟨old, rfl, hold⟩ := insert?_functions_of_global hs.inner hinsert
  have hlookup := @Scopes.lookup_bind s.context.scopes f.name
    (.functions (old ++ [s.context.functions.next])) hs.inner
  have hnext : s.context.functions.isBase s.context.functions.next = false :=
    decide_eq_false (Nat.not_lt.mpr (Nat.le_add_right ..))
  refine ⟨⟨Scopes.inner_bind hs.inner, fun other symbol hfound hsymbol => ?_, fun other ns hfound =>
    ?_, fun e he => ?_,
    fun n other hown hname => ?_⟩, hbase⟩
  · rw [hlookup] at hfound
    split at hfound
    · exact absurd (Option.some.inj hfound).symm (hsymbol _)
    · exact hs.symbols other symbol hfound hsymbol
  · rw [hlookup] at hfound
    split at hfound
    · obtain rfl := Symbol.functions.inj (Option.some.inj hfound)
      subst other
      refine ⟨⟨_, List.mem_append_right _ (List.mem_singleton_self _), hnext⟩,
        List.forall_mem_append.mpr ⟨fun n hn hown => ?_, ?_⟩⟩
      · obtain hold | ⟨-, hold⟩ := hold
        · exact nameAt?_push ((hs.overloads _ _ hold).2 n hn hown)
        · have hlt : n < s.context.functions.base.size := by rw [hbase, List.size_toArray]; exact hold n hn
          exact absurd hlt (of_decide_eq_false hown)
      · refine List.forall_mem_singleton.mpr fun _ => ?_
        rw [Arena.nameAt?, Arena.get?_push_next, Option.map_some]
    · obtain ⟨hsome, hnames⟩ := hs.overloads other ns hfound
      exact ⟨hsome, fun n hn hown => nameAt?_push (hnames n hn hown)⟩
  · obtain ⟨bs, hbinds, hbs⟩ := hs.elements e he
    refine ⟨bs, hbinds, fun b hb => ?_⟩
    have hb' := hbs b hb
    rw [hlookup, if_neg, hb']
    intro heq
    rw [heq] at hb'
    obtain hold | ⟨hold, -⟩ := hold
    · exact hbinds.ne_functions b hb old (Option.some.inj (hb'.symm.trans hold))
    · cases hb'.symm.trans hold
  · obtain hname | ⟨rfl, rfl⟩ := nameAt?_of_push hname
    · obtain ⟨ns, hfound, hn⟩ := hs.functions n other hown hname
      by_cases heq : other = f.name
      · subst other
        refine ⟨_, by rw [hlookup, if_pos rfl], List.mem_append_left _ ?_⟩
        obtain hold | ⟨hold, -⟩ := hold
        · obtain rfl := Symbol.functions.inj (Option.some.inj (hfound.symm.trans hold))
          exact hn
        · cases hfound.symm.trans hold
      · exact ⟨ns, by rw [hlookup, if_neg heq, hfound], hn⟩
    · exact ⟨_, by rw [hlookup, if_pos rfl], List.mem_append_right _ (List.mem_singleton_self _)⟩

variable {returns : Ty}

lemma lists_declareFunction {w : Word} {ps : List Parameter} :
    Steps s (lift (Check.declareFunction mods returns w.text w.span ps)) fun _ t => s.KeepsLists t ∧
      (t.context.scopes = s.context.scopes ∨ ∃ ns,
      t.context.scopes = s.context.scopes.bind w.text (.functions ns)) := by
  refine .weaken (.precede (.lift (Q := fun _ t => t = _) rfl)) fun _ t ⟨hprecedes, ht⟩ => ?_
  cases hsame : Check.sameSignature? s.context w.text ps with
  | some n =>
    rw [Check.declareFunction_eq_redeclare hsame] at ht
    have hrests : s.Rests t := Steps.rest _ t
      (m := lift (Check.redeclare n returns w.text w.span ps)) (by rw [ht]; rfl)
    exact ⟨hrests.keeps, .inl hrests.scopes⟩
  | none =>
    rw [Check.declareFunction_eq hsame] at ht
    split at ht
    · rename_i scopes hinsert
      subst ht
      exact ⟨⟨hprecedes, fun _ hs => hs.declare hinsert⟩, .inr (exists_bind_of_insert? hinsert)⟩
    · subst ht
      exact ⟨⟨hprecedes, fun hclean => absurd hclean Check.not_clean_report⟩, .inl rfl⟩

lemma base_modify {f : Function → Function} : (functions.modify n f).base = functions.base := by
  unfold Arena.modify
  split <;> rfl

lemma nameAt?_define {m : Nat} :
    (functions.modify n fun f => { f with defined := true }).nameAt? m = functions.nameAt? m := by
  unfold Arena.nameAt? Arena.get? Arena.modify
  split
  · rfl
  · dsimp only
    split
    · rfl
    · rw [Array.getElem?_modify]
      split
      · cases functions.items[m - functions.base.size]? <;> rfl
      · rfl

lemma lists_markDefined {number : Nat} :
    Steps s (lift (Check.markDefined number name span)) fun _ t => s.KeepsLists t ∧
    t.context.scopes = s.context.scopes := by
  refine .weaken (.precede (.lift (Q := fun _ t => t = _) rfl)) fun _ t ⟨hprecedes, ht⟩ => ?_
  have hmark : (Check.markDefined number name span s.context).2 = if (s.context.functionAt number).defined then
      (Check.report (.duplicateDefinition name) span s.context).2
    else { s.context with functions := s.context.functions.modify number fun f => { f with defined := true } } := by
    change ((if (s.context.functionAt number).defined
      then (do Check.report (.duplicateDefinition name) span; return true)
      else (do
        modify fun c => { c with functions := c.functions.modify number fun f => { f with defined := true } }
        return false)
        : Check Bool) s.context).2 = _
    split <;> rfl
  rw [hmark] at ht
  split at ht
  · subst ht
    exact ⟨.of_same rfl rfl rfl (fun _ => rfl) hprecedes, rfl⟩
  · subst ht
    exact ⟨.of_same rfl rfl base_modify (fun _ => nameAt?_define) hprecedes, rfl⟩

variable {ps : List NamedParameter} {w : Word}

lemma lists_functionBody {number : Option Nat} {name : Word} :
    Steps s (functionBody parts start number returns name ps w) fun _ t => s.KeepsLists t ∧
    t.context.scopes = s.context.scopes := by
  unfold functionBody
  split
  · rename_i n
    refine .bind lists_markDefined fun repeated t1 hpost => ?_
    obtain ⟨h1, hscopes⟩ := hpost
    have hdefinition : Steps t1 (definition parts start n returns name ps w) fun e t => t1.Rests t ∧
      ∀ variables_, e.Binds variables_ [] :=
      .still fun r t2 h2 => .still fun _ t3 h3 => .still fun span t4 h4 =>
        .pure ⟨h2.trans (h3.trans h4), fun _ => rfl⟩
    refine .bind hdefinition fun e t2 hpost => ?_
    obtain ⟨h2, he⟩ := hpost
    have hkeeps := h1.trans h2.keeps
    have hsame := h2.scopes.trans hscopes
    split
    · rintro _ _ ⟨⟩
      exact ⟨hkeeps.trans (State.keepsLists_add (he _)), hsame⟩
    · exact .pure ⟨hkeeps, hsame⟩
  · exact .still fun r t1 h1 => .weaken .rest fun _ t2 h2 => ⟨(h1.trans h2).keeps, (h1.trans h2).scopes⟩

lemma lists_functionDeclaration : Steps s (functionDeclaration parts start mods returns w)
    fun _ t => s.KeepsLists t ∧
      (t.context.scopes = s.context.scopes ∨ ∃ ns,
      t.context.scopes = s.context.scopes.bind w.text (.functions ns)) := by
  refine .still fun _ t1 h1 => .still fun ps t2 h2 => .still fun _ t3 h3 => .still fun _ t4 h4 =>
    .still fun _ t5 h5 => ?_
  refine .bind lists_declareFunction fun number t6 hpost => ?_
  obtain ⟨h6, hscopes⟩ := hpost
  refine .still fun opening t7 h7 => ?_
  have hbefore := h1.trans (h2.trans (h3.trans (h4.trans h5)))
  have hkeeps := hbefore.keeps.trans (h6.trans h7.keeps)
  have hrest {u : State} (hu : u.context.scopes = t7.context.scopes) : u.context.scopes = s.context.scopes ∨
      ∃ ns, u.context.scopes = s.context.scopes.bind w.text (.functions ns) := by
    rw [hu, h7.scopes, ← hbefore.scopes]
    exact hscopes
  split
  · split
    · rintro _ _ ⟨⟩
      exact ⟨hkeeps.trans (State.keepsLists_add rfl), hrest rfl⟩
    · exact .pure ⟨hkeeps, hrest rfl⟩
  · refine .weaken (lists_functionBody parts start) fun _ u hpost => ?_
    obtain ⟨hu, heq⟩ := hpost
    exact ⟨hkeeps.trans hu, hrest heq⟩
  · rintro _ _ ⟨⟩

/-! ### Programs -/

instance lists_globalDeclaration : KeepsLists (globalDeclaration parts) := by
  have hfunction (start : Nat) (m : Modifiers) (ty : Ty) (name : Word) :
    KeepsLists (functionDeclaration parts start m ty name) :=
    .of_steps fun _ => .weaken (lists_functionDeclaration parts start) fun _ _ h => h.1
  unfold globalDeclaration
  repeat' first | infer_instance | refine @KeepsLists.bind _ _ _ _ inferInstance fun _ => ?_

instance lists_declarations (n : Nat) : KeepsLists (declarations parts n) := by
  induction n with
  | zero => exact inferInstanceAs (KeepsLists exhausted)
  | succ n ih =>
    refine @KeepsLists.bind _ _ _ _ inferInstance fun w => ?_
    split <;> infer_instance

/-- At the end of a source in which nothing is wrong, the scopes hold its declarations. -/
lemma lists_finish {source : String} {kind : ShaderKind} {options : CompileOptions}
    (hclean : (finish source kind options).context.journal.Clean) :
    (finish source kind options).Lists := by
  have hstart : (beginning source kind options).Lists := by
    have hnone : (beginning source kind options).elements = [] := by
      unfold beginning start
      split <;> rfl
    unfold State.Lists
    rw [hnone, context_beginning]
    refine ⟨⟨rfl, fun _ _ h => (by cases h), fun _ _ h =>
      (by cases h), List.forall_mem_nil _, fun n name hown hname => ?_⟩, rfl⟩
    rw [Arena.nameAt?, Arena.get?, if_neg (of_decide_eq_false hown)] at hname
    cases hname
  rw [finish_eq_after_reading, KeepsJournal.after_bind] at hclean ⊢
  cases hrun : reading source (beginning source kind options) with
  | error e t =>
    rw [hrun] at hclean
    exact (KeepsJournal.error hrun hclean).elim
  | ok a t =>
    rw [hrun] at hclean
    obtain ⟨c, -, hclosing⟩ := closes_closing source.utf8ByteSize t
    dsimp only at hclean ⊢
    rw [after_ok hclosing] at hclean ⊢
    obtain ⟨heq, -⟩ := closing_clean hclosing hclean
    rw [heq] at hclean ⊢
    exact ((lists_declarations _ _).keeps hrun).lists hclean hstart

end Grammar

namespace Program

open Grammar

/-- Reading restores the scopes. In any state a block, a `for` loop and a switch leave all scopes as
they found them, and a function at most binds its name. So an accepted program ends in its global
scope, where every name stands for a struct, a variable, a block or a member of a block that is
declared there, or for functions with at least one of the program among them; and each of these is
found under its name. -/
theorem scopes_restored :
    (∀ count s,
      (∀ env st t, blockStatement (partsFor count) env s = .ok st t → t.context.scopes = s.context.scopes) ∧
      (∀ env st t, forStatement (partsFor count) env s = .ok st t → t.context.scopes = s.context.scopes) ∧
      (∀ env st t, switchStatement (partsFor count) env s = .ok st t → t.context.scopes = s.context.scopes) ∧
      ∀ start modifiers returns name u t,
        functionDeclaration (partsFor count) start modifiers returns name s = .ok u t →
        t.context.scopes = s.context.scopes ∨
        ∃ ns, t.context.scopes = s.context.scopes.bind name.text (.functions ns)) ∧
    ∀ source kind options p, (Program.parse source kind options).result = .ok p →
      p.scopes.inner = [] ∧
      (∀ name symbol, p.scopes.global.lookup name = some symbol → (∀ ns, symbol ≠ .functions ns) →
        ∃ e ∈ p.elements, ∃ bs, e.Binds p.variables bs ∧ (name, symbol) ∈ bs) ∧
      (∀ name ns, p.scopes.global.lookup name = some (.functions ns) → (∃ n ∈ ns, p.functions.isBase n = false) ∧
        ∀ n ∈ ns, p.functions.isBase n = false → p.functions.nameAt? n = some name) ∧
      (∀ e ∈ p.elements, ∃ bs, e.Binds p.variables bs ∧ ∀ b ∈ bs, p.scopes.global.lookup b.1 = some b.2) ∧
      ∀ n name, p.functions.isBase n = false → p.functions.nameAt? n = some name →
        ∃ ns, p.scopes.global.lookup name = some (.functions ns) ∧ n ∈ ns := by
  refine ⟨fun count s => ⟨fun env st t h => (Still.stays h).scopes, fun env st t h => (Still.stays h).scopes,
    fun env st t h => (Still.stays h).scopes, fun start m returns name u t h =>
      (lists_functionDeclaration _ _ u t h).2⟩,
    fun source kind options p h => ?_⟩
  obtain ⟨hclean, rfl⟩ := isRead_of_parse h
  obtain ⟨hlists, -⟩ := lists_finish hclean
  refine ⟨hlists.inner, fun name symbol hfound hsymbol => ?_, hlists.overloads, fun e he =>
    hlists.elements e (List.mem_reverse.mp he),
    hlists.functions⟩
  obtain ⟨e, he, hbinds⟩ := hlists.symbols name symbol hfound hsymbol
  exact ⟨e, List.mem_reverse.mpr he, hbinds⟩

lemma exists_ok {α : Type} {m : Parse α} {s : State}
    (h : (match m s with | .ok .. => true | .error .. => false) = true) :
    ∃ a t, m s = .ok a t := by
  split at h
  · exact ⟨_, _, ‹_›⟩
  · cases h

/-- A block, a loop, a switch and a function that declare variables, and a program with something of
every kind. -/
theorem scopes_restored_samples :
    (∃ st t, blockStatement (partsFor 9) {} (beginning "{ int x; }" .base {}) = .ok st t ∧
      t.context.scopes = (beginning "{ int x; }" .base {}).context.scopes) ∧
    (∃ st t, forStatement (partsFor 9) {} (beginning "for (int i;;) i++;" .base {}) = .ok st t ∧
      t.context.scopes = (beginning "for (int i;;) i++;" .base {}).context.scopes) ∧
    (∃ st t, switchStatement (partsFor 9) {} (beginning "switch (1) { case 1: int x; }" .base {}) = .ok st t ∧
      t.context.scopes = (beginning "switch (1) { case 1: int x; }" .base {}).context.scopes) ∧
    (∃ u t, functionDeclaration (partsFor 9) 0 {} .void ⟨.identifier, "f", ⟨0, 0⟩, []⟩
      (beginning "(int x) { int y; }" .base {}) = .ok u t ∧
      (t.context.scopes = (beginning "(int x) { int y; }" .base {}).context.scopes ∨
        ∃ ns, t.context.scopes = (beginning "(int x) { int y; }" .base {}).context.scopes.bind "f"
        (.functions ns))) ∧
    ∃ p, (Program.parse "struct S { int a; }; uniform B { S b; }; float g; int f(int x) { int y = x; return y; }"
      .base {}).result = .ok p ∧
      p.scopes.inner = [] ∧ p.elements.length = 4 := by
  obtain ⟨st₁, t₁, h₁⟩ : ∃ st t, blockStatement (partsFor 9) {} (beginning "{ int x; }" .base {}) =
    .ok st t := exists_ok (by decide +kernel)
  obtain ⟨st₂, t₂, h₂⟩ : ∃ st t, forStatement (partsFor 9) {}
    (beginning "for (int i;;) i++;" .base {}) = .ok st t :=
    exists_ok (by decide +kernel)
  obtain ⟨st₃, t₃, h₃⟩ : ∃ st t, switchStatement (partsFor 9) {}
    (beginning "switch (1) { case 1: int x; }" .base {}) = .ok st t :=
    exists_ok (by decide +kernel)
  obtain ⟨u, t₄, h₄⟩ : ∃ u t, functionDeclaration (partsFor 9) 0 {} .void ⟨.identifier, "f", ⟨0, 0⟩, []⟩
      (beginning "(int x) { int y; }" .base {}) = .ok u t := exists_ok (by decide +kernel)
  obtain ⟨p, hp, hlength⟩ : ∃ p, (Program.parse
      "struct S { int a; }; uniform B { S b; }; float g; int f(int x) { int y = x; return y; }"
        .base {}).result = .ok p ∧
      p.elements.length = 4 := exists_ok_of_map (by decide +kernel)
  obtain ⟨hrestored, hglobal⟩ := scopes_restored
  exact ⟨⟨st₁, t₁, h₁, (hrestored 9 _).1 _ _ _ h₁⟩, ⟨st₂, t₂, h₂, (hrestored 9 _).2.1 _ _ _ h₂⟩,
    ⟨st₃, t₃, h₃, (hrestored 9 _).2.2.1 _ _ _ h₃⟩, ⟨u, t₄, h₄, (hrestored 9 _).2.2.2 0 {} .void _ _ _ h₄⟩,
    ⟨p, hp, (hglobal _ _ _ p hp).1, hlength⟩⟩

end Program
end Shading
