import Shading.Proofs.Spirv.Table

/-! Steps that write a module straight on: they open and close no block. Whatever such a step
defines has an id that was free before it. -/
namespace Shading.Spirv

namespace Instruction

/-- What may stand in the middle of a block and has to do with no other block. -/
def isPlain (i : Instruction) : Bool :=
  !(i.op matches .label | .branch | .branchConditional | .switch | .kill | .return_ | .returnValue | .unreachable
    | .selectionMerge | .loopMerge | .phi | .function | .functionParameter | .functionEnd | .variable_)

/-- A type, a constant or a variable. -/
def isDeclaration (i : Instruction) : Bool :=
  i.op matches .typeVoid | .typeBool | .typeInt | .typeFloat | .typeVector | .typeMatrix
    | .typeArray | .typeRuntimeArray
    | .typeStruct | .typePointer | .typeFunction | .constantTrue | .constantFalse | .constant
      | .constantComposite | .variable_

/-- Something that is said about an id. -/
def isNote (i : Instruction) : Bool := i.result.isNone &&
    (i.op matches .name | .memberName | .decorate | .memberDecorate)

lemma result_of_isNote {i : Instruction} (h : i.isNote = true) : i.result = none :=
  Option.isNone_iff_eq_none.mp (Bool.and_eq_true_iff.mp h).1

end Instruction

/-- All ids that instructions define are different and in a range. -/
structure Fresh (lo hi : Nat) (is : List Instruction) : Prop where
  nodup : (results is).Nodup
  range : ∀ x ∈ results is, lo ≤ x ∧ x < hi

namespace Fresh

variable {lo mid hi : Nat} {is js : List Instruction}

lemma nil : Fresh lo hi [] := ⟨List.nodup_nil, by simp⟩

lemma append (his : Fresh lo mid is) (hjs : Fresh mid hi js) (h : lo ≤ mid) (h' : mid ≤ hi) :
    Fresh lo hi (js ++ is) := by
  constructor
  · rw [results_append, List.nodup_append]
    refine ⟨hjs.nodup, his.nodup, fun x hx y hy => ?_⟩
    have := hjs.range x hx
    have := his.range y hy
    omega
  · intro x hx
    rw [results_append, List.mem_append] at hx
    obtain hx | hx := hx
    · have := hjs.range x hx
      omega
    · have := his.range x hx
      omega

lemma perm (h : Fresh lo hi is) (hp : is.Perm js) : Fresh lo hi js := by
  have hresults : (results is).Perm (results js) := hp.filterMap _
  exact ⟨hresults.nodup_iff.mp h.nodup, fun x hx => h.range x (hresults.mem_iff.mpr hx)⟩

end Fresh

namespace Builder

/-- What the body of a function leaves alone. -/
structure Outer where
  functions : List Instruction
  functionIds : Std.TreeMap Nat Nat
  mathSet : Nat
  header : List Instruction

def outer (b : Builder) : Outer := ⟨b.functions, b.functionIds, b.mathSet, b.body.header⟩

/-- What straight steps leave alone. -/
structure Frame where
  outer : Outer
  block : Option Nat
  breaks : List JumpTarget
  continues : List JumpTarget

def frame (b : Builder) : Frame := ⟨b.outer, b.body.block, b.body.breaks, b.body.continues⟩

/-- New types, constants and global variables, new variables of the function, and new instructions
of the open block. -/
structure Adds (b b' : Builder) (g l c : List Instruction) : Prop where
  globals : b'.globals = g ++ b.globals
  locals : b'.body.locals = l ++ b.body.locals
  code : b'.body.code = c ++ b.body.code
  fresh : Fresh b.next b'.next (g ++ (l ++ c))
  isDeclaration : ∀ i ∈ g, i.isDeclaration = true
  isVariable : ∀ i ∈ l, i.op = .variable_

/-- A step that goes straight on. -/
structure Straight (b b' : Builder) : Prop where
  next : b.next ≤ b'.next
  journal : b.journal <:+ b'.journal
  frame : b'.frame = b.frame
  added : ∃ g l c, Adds b b' g l c ∧ ∀ i ∈ c, i.isPlain = true
  notes : ∀ i ∈ b'.names ++ b'.decorations, i ∈ b.names ++ b.decorations ∨ i.isNote = true
  keeps : Keeps b b'

lemma Adds.nil {b b' : Builder} (hglobals : b'.globals = b.globals) (hlocals : b'.body.locals = b.body.locals)
    (hcode : b'.body.code = b.body.code) : Adds b b' [] [] [] :=
  ⟨hglobals, hlocals, hcode, .nil, by simp, by simp⟩

lemma Adds.trans {b b' b'' : Builder} {g l c g' l' c' : List Instruction} (h : Adds b b' g l c)
    (h' : Adds b' b'' g' l' c')
    (hnext : b.next ≤ b'.next) (hnext' : b'.next ≤ b''.next) : Adds b b'' (g' ++ g) (l' ++ l) (c' ++ c) := by
  refine ⟨?_, ?_, ?_, ?_, fun i hi => ?_, fun i hi => ?_⟩
  · rw [h'.globals, h.globals, List.append_assoc]
  · rw [h'.locals, h.locals, List.append_assoc]
  · rw [h'.code, h.code, List.append_assoc]
  · refine (h.fresh.append h'.fresh hnext hnext').perm ?_
    exact List.perm_iff_count.mpr fun i => by simp only [List.count_append]; omega
  · exact (List.mem_append.mp hi).elim (h'.isDeclaration i) (h.isDeclaration i)
  · exact (List.mem_append.mp hi).elim (h'.isVariable i) (h.isVariable i)

namespace Straight

variable {b b' b'' : Builder}

lemma refl (b : Builder) : Straight b b :=
  ⟨Nat.le_refl _, List.suffix_rfl, rfl, ⟨[], [], [], .nil rfl rfl rfl, by simp⟩, fun _ hi => .inl hi, .refl b⟩

lemma trans (h : Straight b b') (h' : Straight b' b'') : Straight b b'' := by
  obtain ⟨g, l, c, hadds, hplain⟩ := h.added
  obtain ⟨g', l', c', hadds', hplain'⟩ := h'.added
  refine ⟨Nat.le_trans h.next h'.next, h.journal.trans h'.journal, h'.frame.trans h.frame,
    ⟨_, _, _, hadds.trans hadds' h.next h'.next, fun i hi => ?_⟩, fun i hi => ?_, h.keeps.trans h'.keeps⟩
  · exact (List.mem_append.mp hi).elim (hplain' i) (hplain i)
  · exact (h'.notes i hi).elim (h.notes i) .inr

lemma of_eq (hnext : b'.next = b.next) (hjournal : b.journal <:+ b'.journal) (hframe : b'.frame = b.frame)
    (hglobals : b'.globals = b.globals) (hlocals : b'.body.locals = b.body.locals)
    (hcode : b'.body.code = b.body.code)
    (hnames : b'.names = b.names) (hdecorations : b'.decorations = b.decorations) (hids : b'.ids = b.ids)
    (htemplates : b'.templates = b.templates) : Straight b b' := by
  refine ⟨Nat.le_of_eq hnext.symm, hjournal, hframe,
    ⟨[], [], [], .nil hglobals hlocals hcode, by simp⟩, fun i hi => .inl ?_,
    .of_eq hids htemplates hglobals (Nat.le_of_eq hnext.symm)⟩
  rwa [hnames, hdecorations] at hi

variable {i : Instruction}

lemma global {ids : Std.TreeMap Template Nat (compareOn Template.key)} {templates : Std.TreeMap Nat Template}
    (hi : i.result = some b.next) (hdeclaration : i.isDeclaration = true)
    (hkeeps : Keeps b { b with next := b.next + 1, globals := i :: b.globals, ids, templates }) :
    Straight b { b with next := b.next + 1, globals := i :: b.globals, ids, templates } := by
  refine ⟨Nat.le_succ _, List.suffix_rfl, rfl,
    ⟨[i], [], [], ⟨rfl, rfl, rfl, ⟨?_, ?_⟩, ?_, by simp⟩, by simp⟩, fun _ hi => .inl hi, hkeeps⟩
  · simp [hi]
  · simp [hi]
  · simpa using hdeclaration

lemma note (names decorations : List Instruction) {ids : Std.TreeMap Template Nat (compareOn Template.key)}
    (hi : i.isNote = true) (h : ∀ j ∈ names ++ decorations, j ∈ b.names ++ b.decorations ∨ j = i)
    (hkeeps : Keeps b { b with names, decorations, ids }) : Straight b { b with names, decorations, ids } := by
  refine ⟨Nat.le_refl _, List.suffix_rfl, rfl, ⟨[], [], [], .nil rfl rfl rfl, by simp⟩, fun j hj =>
    (h j hj).imp_right ?_, hkeeps⟩
  rintro rfl
  exact hi

/-- An instruction that takes an id while other things are written between the choice of the id and
the instruction. -/
lemma adds_code (h : Straight { b with next := b.next + 1 } b') (hi : i.result = some b.next) :
    ∃ g l c, Adds b { b' with body := { b'.body with code := i :: b'.body.code } } g l (i :: c) ∧
      ∀ j ∈ c, j.isPlain = true := by
  obtain ⟨g, l, c, hadds, hc⟩ := h.added
  refine ⟨g, l, c, ⟨hadds.globals, hadds.locals, congrArg (i :: ·) hadds.code, ?_,
    hadds.isDeclaration, hadds.isVariable⟩, hc⟩
  have hperm : (g ++ (l ++ i :: c)).Perm ((g ++ (l ++ c)) ++ [i]) :=
    List.perm_iff_count.mpr fun j => by simp only [List.count_append, List.count_cons, List.count_nil]; omega
  refine Fresh.perm ?_ hperm.symm
  have hfresh : Fresh b.next (b.next + 1) [i] := ⟨by simp [hi], by simp [hi]⟩
  exact hfresh.append hadds.fresh (Nat.le_succ _) h.next

lemma code (h : Straight { b with next := b.next + 1 } b') (hi : i.result = some b.next)
    (hplain : i.isPlain = true) :
    Straight b { b' with body := { b'.body with code := i :: b'.body.code } } := by
  obtain ⟨g, l, c, hadds, hc⟩ := h.adds_code hi
  have hfresh : Keeps b { b with next := b.next + 1 } := .of_eq rfl rfl rfl (Nat.le_succ _)
  have hkeeps : Keeps b' { b' with body := { b'.body with code := i :: b'.body.code } } :=
    .of_eq rfl rfl rfl (Nat.le_refl _)
  exact ⟨Nat.le_of_succ_le h.next, h.journal, h.frame,
    ⟨g, l, i :: c, hadds, List.forall_mem_cons.mpr ⟨hplain, hc⟩⟩, h.notes,
    (hfresh.trans h.keeps).trans hkeeps⟩

lemma local_ (hi : i.result = some b.next) (hop : i.op = .variable_) :
    Straight b { b with next := b.next + 1, body := { b.body with locals := i :: b.body.locals } } := by
  refine ⟨Nat.le_succ _, List.suffix_rfl, rfl,
    ⟨[], [i], [], ⟨rfl, rfl, rfl, ⟨?_, ?_⟩, by simp, ?_⟩, by simp⟩, fun _ hi => .inl hi,
    .of_eq rfl rfl rfl (Nat.le_succ _)⟩
  · simp [hi]
  · simp [hi]
  · simpa using hop

lemma emit (hi : i.result = none) (hplain : i.isPlain = true) :
    Straight b { b with body := { b.body with code := i :: b.body.code } } := by
  refine ⟨Nat.le_refl _, List.suffix_rfl, rfl,
    ⟨[], [], [i], ⟨rfl, rfl, rfl, ⟨?_, ?_⟩, by simp, by simp⟩, ?_⟩, fun _ hi => .inl hi,
    .of_eq rfl rfl rfl (Nat.le_refl _)⟩
  · simp [hi]
  · simp [hi]
  · simpa using hplain

end Straight
end Builder

namespace Build

open Builder (Straight)

variable {α β : Type}

/-- The step goes straight on from every state. -/
class IsStraight (m : Build α) : Prop where
  straight : ∀ s b, Straight b (m s b).2

namespace IsStraight

instance (a : α) : IsStraight (pure a : Build α) := ⟨fun _ b => .refl b⟩

instance bind (m : Build α) (f : α → Build β) [hm : IsStraight m] [hf : ∀ a, IsStraight (f a)] :
    IsStraight (m >>= f) :=
  ⟨fun s b => (hm.straight s b).trans ((hf (m s b).1).straight s (m s b).2)⟩

instance (p : Prop) [Decidable p] (m n : Build α) [hm : IsStraight m] [hn : IsStraight n] :
    IsStraight (if p then m else n) := by
  split <;> assumption

instance : IsStraight (get : Build Builder) := ⟨fun _ b => .refl b⟩

instance : IsStraight (read : Build Setting) := ⟨fun _ b => .refl b⟩

lemma of_modify {f : Builder → Builder} (h : ∀ b, Straight b (f b)) :
    IsStraight (modify f : Build Unit) := ⟨fun _ => h⟩

instance (e : Event) : IsStraight (note e) :=
  of_modify fun b => .of_eq rfl (List.suffix_cons e b.journal) rfl rfl rfl rfl rfl rfl rfl rfl

instance : IsStraight fresh :=
  ⟨fun _ _ => ⟨Nat.le_succ _, List.suffix_rfl, rfl, ⟨[], [], [], .nil rfl rfl rfl, by simp⟩, fun _ hi => .inl hi,
    .of_eq rfl rfl rfl (Nat.le_succ _)⟩⟩

variable {t : Template}

lemma of_notFound {part : Section} (h : ∀ s b, b.ids[t]? = none → Straight b (write part t s b).2) :
    IsStraight (once part t) := by
  refine ⟨fun s b => ?_⟩
  rw [once_eq]
  cases hfound : b.ids[t]? with
  | some id => exact (inferInstance : IsStraight (note (.instructionShared id))).straight s b
  | none => exact h s b hfound

lemma global (ht : t.sharing ≠ .noResult) (hdeclaration : Instruction.isDeclaration { op := t.op } = true) :
    IsStraight (global t) := by
  refine of_notFound fun s b hnew => ?_
  rw [write_eq ht]
  refine .global (if_neg ht) hdeclaration (.remember ?_ hnew ht)
  split
  · exact .inl rfl
  · exact .inr rfl

lemma note_ {part : Section} (hpart : part ≠ .globals) (ht : t.sharing = .noResult)
    (hop : Instruction.isNote { op := t.op } = true) : IsStraight (once part t) := by
  refine of_notFound fun s b hnew => ?_
  have hnote : (t.instruction 0).isNote = true := by
    simpa [Template.instruction, ht, Instruction.isNote] using hop
  rw [write_note ht]
  cases part with
  | globals => exact absurd rfl hpart
  | names =>
    refine .note (t.instruction 0 :: b.names) b.decorations hnote (fun j hj => ?_) (.rememberNote hnew ht)
    simpa [or_comm, or_assoc] using hj
  | decorations =>
    refine .note b.names (t.instruction 0 :: b.decorations) hnote (fun j hj => ?_) (.rememberNote hnew ht)
    simpa [or_comm, or_assoc, or_left_comm] using hj

lemma named {p : Setting → Bool} (ht : t.sharing = .noResult) (hop : Instruction.isNote { op := t.op } = true) :
    IsStraight (do if p (← read) then let _ ← once .names t : Build Unit) := by
  refine @bind _ _ _ _ inferInstance fun _ => ?_
  split
  · exact @bind _ _ _ _ (note_ nofun ht hop) fun _ => inferInstance
  · infer_instance

lemma compute {op : Op} {type : Nat} {operands : List Operand}
    (h : Instruction.isPlain { op } = true) : IsStraight (compute op type operands) :=
  ⟨fun _ b => .code (.refl { b with next := b.next + 1 }) rfl h⟩

lemma emit {op : Op} {operands : List Operand} (h : Instruction.isPlain { op } = true) :
    IsStraight (emit op operands) :=
  ⟨fun _ _ => .emit rfl h⟩

end IsStraight
end Build
end Shading.Spirv
