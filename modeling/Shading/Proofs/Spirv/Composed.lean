import Shading.Proofs.Spirv.Spanned
import Shading.Proofs.Spirv.Straight

/-! The steps that write a module are put together from a few elementary ones: whatever these do is
all that writing a module does. Only names for debugging look at the options, and only what is
written once looks at the table of ids. Problems are found at the place that a step has last been
told of, at a place it is given, or at a member of a type it is given. -/
namespace Shading.Spirv

/-! ### Elementary steps -/

deriving instance DecidableEq for Section

namespace Op

/-- What gives an id or a member its name for debugging. -/
def isName (op : Op) : Bool := op matches .name | .memberName

/-- A type, other than those of structs and arrays. -/
def isPlainType (op : Op) : Bool :=
  op matches .typeVoid | .typeBool | .typeInt | .typeFloat | .typeVector | .typeMatrix
    | .typePointer | .typeFunction

/-- The section of what is written once. -/
def section? : Op → Option Section
  | name | memberName => some .names
  | decorate | memberDecorate => some .decorations
  | typeVoid | typeBool | typeInt | typeFloat | typeVector | typeMatrix | typePointer | typeFunction
  | typeArray | typeRuntimeArray
  | typeStruct | constant | constantTrue | constantFalse | constantComposite => some .globals
  | _ => none

/-- What is written once. -/
def isShared (op : Op) : Bool := op.section?.isSome

/-- How instructions of an operation are shared; the key is for arrays. -/
def sharing (op : Op) (key : Nat) : Sharing :=
  match op with
  | name | memberName | decorate | memberDecorate => .noResult
  | typeArray | typeRuntimeArray => .keyed key
  | typeStruct => .unique
  | _ => .shared

variable {op : Op}

section Cases

attribute [local simp] section? sharing

lemma isName_iff : op.isName = true ↔ op.section? = some .names := by
  cases op <;> simp [isName]

variable {key : Nat}

lemma sharing_eq_noResult_iff : op.sharing key = .noResult ↔ op.section? = some .names ∨
    op.section? = some .decorations := by
  cases op <;> simp

lemma sharing_eq_unique_iff : op.sharing key = .unique ↔ op = .typeStruct := by
  cases op <;> simp

lemma sharing_of_ne (hstruct : op ≠ .typeStruct) (harray : op ≠ .typeArray) (hruntime : op ≠ .typeRuntimeArray) :
    op.sharing key = .shared ∨ op.sharing key = .noResult := by
  cases op <;> simp_all

lemma sharing_eq_of_shared {key' : Nat} (h : op.sharing key = .shared ∨ op.sharing key = .noResult) :
    op.sharing key' = op.sharing key := by
  cases op <;> first | rfl | simp at h

lemma isDeclaration_of_section? (h : op.section? = some .globals) : Instruction.isDeclaration { op } = true := by
  cases op <;> first | rfl | simp at h

lemma isNote_of_section? (h : op.section? = some .decorations) : Instruction.isNote { op } = true := by
  cases op <;> first | rfl | simp at h

lemma section?_of_isPlainType (h : op.isPlainType = true) : op.section? = some .globals := by
  cases op <;> simp_all [isPlainType]

end Cases

lemma isName_of_isShared (h : op.isShared = false) : op.isName = false := by
  refine Bool.eq_false_iff.mpr fun hname => ?_
  simp [isShared, isName_iff.mp hname] at h

lemma sharing_of_isPlainType (h : op.isPlainType = true) (key : Nat) : op.sharing key = .shared := by
  cases op <;> first | rfl | cases h

/-- What may be written in the middle of a block. -/
def isCode (op : Op) : Bool := !op.isShared && Instruction.isPlain { op }

lemma isShared_of_isCode (h : op.isCode = true) : op.isShared = false := by
  simpa using (Bool.and_eq_true_iff.mp h).1

lemma isPlain_of_isCode (h : op.isCode = true) : Instruction.isPlain { op } = true := (Bool.and_eq_true_iff.mp h).2

end Op

/-- The key that is not written. -/
def Sharing.hidden : Sharing → Nat
  | keyed key => key
  | _ => 0

/-- The template is one of the section, and is shared in the way of its operation. Types have no
type. -/
def Template.belongs (t : Template) (part : Section) : Bool :=
  t.op.section? = some part && t.sharing = t.op.sharing t.sharing.hidden && (!t.op.isPlainType || t.type.isNone)

namespace Template

variable {t u : Template} {part : Section}

lemma belongs_iff : t.belongs part = true ↔
    t.op.section? = some part ∧ t.sharing = t.op.sharing t.sharing.hidden ∧
    (t.op.isPlainType = true → t.type = none) := by
  cases h : t.op.isPlainType <;> simp [belongs, h, and_assoc]

lemma section?_of_belongs (h : t.belongs part = true) : t.op.section? = some part := (belongs_iff.mp h).1

lemma isName_of_belongs (h : t.belongs part = true) : t.op.isName = true ↔ part = .names := by
  rw [Op.isName_iff, section?_of_belongs h, Option.some.injEq]

lemma noResult_of_belongs (h : t.belongs part = true) : t.sharing = .noResult ↔ part ≠ .globals := by
  rw [(belongs_iff.mp h).2.1, Op.sharing_eq_noResult_iff, section?_of_belongs h]
  cases part <;> simp

lemma unique_of_belongs (h : t.belongs part = true) : t.sharing = .unique ↔ t.op = .typeStruct := by
  rw [(belongs_iff.mp h).2.1, Op.sharing_eq_unique_iff]

lemma eq_globals_of_belongs (h : t.belongs part = true) (hresult : t.sharing ≠ .noResult) : part = .globals := by
  by_contra hpart
  exact hresult ((noResult_of_belongs h).mpr hpart)

end Template

variable {P : Span → Prop} {f : Builder → Builder}

namespace Builder

/-- What has been written, and what is known about it: everything but the notes that are kept about
the program. -/
def content (b : Builder) : Builder where
  next := b.next
  names := b.names
  decorations := b.decorations
  globals := b.globals
  functions := b.functions
  functionWords := b.functionWords
  ids := b.ids
  templates := b.templates
  body := { header := b.body.header, locals := b.body.locals, code := b.body.code }

/-- Other names for debugging, with the table and the journal that go with them. -/
def rename (b : Builder) (names : List Instruction)
    (ids : Std.TreeMap Template Nat (compareOn Template.key)) (journal : Journal) :
    Builder :=
  { b with names, ids, journal }

/-- The change is one of notes about the program, does not look at names for debugging, and keeps to
places with the property. -/
structure Notes (P : Span → Prop) (f : Builder → Builder) : Prop where
  content : ∀ b, (f b).content = b.content
  rename : ∀ b names ids journal, f (b.rename names ids journal) = (f b).rename names ids journal
  spanned : ∀ b, b.Spanned P → (f b).Spanned P

lemma Notes.journal_eq (h : Notes P f) (b : Builder) : (f b).journal = b.journal := by
  have hrename := congrArg journal (h.rename b b.names b.ids b.journal)
  exact hrename

lemma Notes.straight (h : Notes P f) {b : Builder} (hframe : (f b).frame = b.frame) :
    Straight b (f b) := by
  have hcontent {γ : Type} (part : Builder → γ) : part (f b).content = part b.content :=
    congrArg part (h.content b)
  exact .of_eq (hcontent next) (h.journal_eq b ▸ List.suffix_rfl) hframe (hcontent globals)
    (hcontent (·.body.locals))
    (hcontent (·.body.code)) (hcontent names) (hcontent decorations) (hcontent ids) (hcontent templates)

end Builder

/-- Other options. -/
def Setting.withOptions (s : Setting) (options : CompileOptions) : Setting :=
    { s with program := { s.program with options } }

namespace Build

/-- Appends an instruction to the code of the function. -/
def push (i : Instruction) : Build Unit := modify fun b =>
    { b with body := { b.body with code := i :: b.body.code } }

/-- Appends a variable to those of the function. -/
def pushLocal (i : Instruction) : Build Unit := modify fun b =>
    { b with body := { b.body with locals := i :: b.body.locals } }

/-- Writes a global variable. -/
def declare (type : Nat) (operands : List Operand) : Build Nat := do
  let id ← fresh
  append .globals { op := .variable_, type, result := id, operands }
  return id

/-- Forgets what is left of a function. -/
def clear : Build Unit := modify fun b => { b with body := {} }

/-- The elementary steps that leave the notes about the program alone, up to the place that is being
written. -/
inductive Quiet (P : Span → Prop) : (α : Type) → Build α → Prop
  | note {e : Event} (h : ∀ r ∈ e.report?, P r.span) : Quiet P Unit (note e)
  | fresh : Quiet P Nat fresh
  | once {part : Section} {t : Template} (hpart : part ≠ .names) (ht : t.belongs part = true) :
    Quiet P Nat (once part t)
  | name (target : Nat) (text : String) : Quiet P Unit (name target text)
  | nameMember (target member : Nat) (text : String) : Quiet P Unit (nameMember target member text)
  | setSpan {span : Span} (h : P span) : Quiet P Unit (setSpan span)

/-- The elementary steps outside of functions. -/
inductive Outside (P : Span → Prop) : (α : Type) → Build α → Prop
  | quiet {α : Type} {m : Build α} (h : Quiet P α m) : Outside P α m
  | declare (type : Nat) (operands : List Operand) : Outside P Nat (declare type operands)
  | modify {f : Builder → Builder} (h : Builder.Notes P f) (hbody : ∀ b, (f b).body = b.body)
    (hframe : ∀ b, (f b).frame = b.frame) :
    Outside P Unit (modify f)

/-- With them, those that write straight on in the open block. -/
inductive Plain (P : Span → Prop) : (α : Type) → Build α → Prop
  | outside {α : Type} {m : Build α} (h : Outside P α m) : Plain P α m
  | compute {op : Op} {type : Nat} {operands : List Operand} (h : op.isCode = true) :
    Plain P Nat (compute op type operands)
  | result {op : Op} {ty : Ty} {operands : List Operand} (h : op.isCode = true) (hty : ty.Spanned P) :
    Plain P Nat (result op ty operands)
  | emit {op : Op} {operands : List Operand} (h : op.isCode = true) : Plain P Unit (emit op operands)
  | localVariable {ty : Ty} (hty : ty.Spanned P) : Plain P Nat (localVariable ty)

/-- With them, those that open and close blocks. -/
inductive Inner (P : Span → Prop) : (α : Type) → Build α → Prop
  | plain {α : Type} {m : Build α} (h : Plain P α m) : Inner P α m
  | push {i : Instruction} (h : i.op.isShared = false) : Inner P Unit (push i)
  | modify {f : Builder → Builder} (h : Builder.Notes P f) (houter : ∀ b, (f b).outer = b.outer) :
    Inner P Unit (modify f)

/-- All steps between the start of a function and its end, and between functions. -/
inductive Active (P : Span → Prop) : (α : Type) → Build α → Prop
  | outside {α : Type} {m : Build α} (h : Outside P α m) : Active P α m
  | push {i : Instruction} (h : i.op.isShared = false) : Active P Unit (push i)
  | pushLocal {i : Instruction} (h : i.op.isShared = false) : Active P Unit (pushLocal i)
  | appendHeader {i : Instruction} (h : i.op.isShared = false) : Active P Unit (appendHeader i)
  | modify {f : Builder → Builder} (h : Builder.Notes P f) : Active P Unit (modify f)

/-- All elementary steps. -/
inductive Whole (P : Span → Prop) : (α : Type) → Build α → Prop
  | active {α : Type} {m : Build α} (h : Active P α m) : Whole P α m
  | clear : Whole P Unit clear
  | endFunction : Whole P Unit endFunction

/-- The result is as stated, whatever has been written before. -/
def Gives (P : Span → Prop) {α : Type} (m : Build α) (Q : α → Prop) : Prop :=
    ∀ (s : Setting) (b : Builder), s.program.Spanned P → Q (m s b).1

/-- The step is put together from elementary ones, for programs whose places have the property. -/
class inductive Composed (E : (Span → Prop) → (α : Type) → Build α → Prop) (P : Span → Prop) :
    {α : Type} → Build α → Prop
  | elementary {α : Type} {m : Build α} (h : E P α m) : Composed E P m
  | pure {α : Type} (a : α) : Composed E P (pure a)
  /-- The rest may depend on what is known of the result. -/
  | bind_of {α β : Type} {m : Build α} {f : α → Build β} {Q : α → Prop} (hm : Composed E P m) (hQ : Gives P m Q)
    (hf : ∀ a, Q a → Composed E P (f a)) : Composed E P (m >>= f)
  /-- The setting may be looked at, but not the options. -/
  | ask {β : Type} {f : Setting → Build β} (h : ∀ s options, f (s.withOptions options) = f s)
    (hf : ∀ s : Setting, s.program.Spanned P → Composed E P (f s)) : Composed E P (read >>= f)
  /-- The state may be looked at, but not the names for debugging. -/
  | look {β : Type} {f : Builder → Build β} (h : ∀ b names ids journal, f (b.rename names ids journal) = f b)
    (hf : ∀ b : Builder, b.Spanned P → Composed E P (f b)) : Composed E P (get >>= f)

namespace Composed

variable {α β : Type} {P : Span → Prop} {E F : (Span → Prop) → (α : Type) → Build α → Prop} {m : Build α}

lemma lift (h : ∀ {α : Type} {m : Build α}, E P α m → Composed F P m) (hm : Composed E P m) : Composed F P m := by
  induction hm with
  | elementary hm => exact h hm
  | pure a => exact .pure a
  | bind_of _ hQ _ ihm ihf => exact .bind_of ihm hQ ihf
  | ask hf _ ih => exact .ask hf ih
  | look hf _ ih => exact .look hf ih

instance (priority := low) outside (m : Build α) [h : Composed Quiet P m] : Composed Outside P m :=
    h.lift fun h => .elementary (.quiet h)

instance (priority := low) plain (m : Build α) [h : Composed Outside P m] : Composed Plain P m :=
    h.lift fun h => .elementary (.outside h)

instance (priority := low) inner (m : Build α) [h : Composed Plain P m] : Composed Inner P m :=
    h.lift fun h => .elementary (.plain h)

instance (priority := low) (m : Build α) [h : Composed Active P m] : Composed Whole P m :=
    h.lift fun h => .elementary (.active h)

instance (a : α) : Composed E P (Pure.pure a) := .pure a

lemma bind {f : α → Build β} (hm : Composed E P m) (hf : ∀ a, Composed E P (f a)) : Composed E P (m >>= f) :=
  .bind_of (Q := fun _ => True) hm (fun _ _ _ => trivial) fun a _ => hf a

instance (m : Build α) (f : α → Build β) [hm : Composed E P m] [hf : ∀ a, Composed E P (f a)] :
    Composed E P (m >>= f) := .bind hm hf

instance ite {p : Prop} [Decidable p] {m n : Build α} [hm : Composed E P m] [hn : Composed E P n] :
    Composed E P (if p then m else n) := by
  split <;> assumption

lemma mapM_of {f : α → Build β} {as : List α} (hf : ∀ a ∈ as, Composed E P (f a)) : Composed E P (as.mapM f) := by
  induction as with
  | nil => rw [List.mapM_nil]; infer_instance
  | cons a as ih =>
    rw [List.forall_mem_cons] at hf
    rw [List.mapM_cons]
    exact .bind hf.1 fun _ => .bind (ih hf.2) fun _ => .pure _

lemma forIn_of {f : α → β → Build (ForInStep β)} {as : List α} (hf : ∀ a ∈ as, ∀ b, Composed E P (f a b)) (b : β) :
    Composed E P (forIn as b f) := by
  induction as generalizing b with
  | nil => rw [List.forIn_nil]; infer_instance
  | cons a as ih =>
    rw [List.forall_mem_cons] at hf
    rw [List.forIn_cons]
    refine .bind (hf.1 b) fun r => ?_
    cases r with
    | done b => infer_instance
    | yield b => exact ih hf.2 b

lemma forM_of {f : α → Build PUnit} {as : List α} (hf : ∀ a ∈ as, Composed E P (f a)) :
    Composed E P (as.forM f) := by
  induction as with
  | nil => exact .pure _
  | cons a as ih =>
    rw [List.forall_mem_cons] at hf
    exact .bind hf.1 fun _ => ih hf.2

instance (f : α → Build β) [hf : ∀ a, Composed E P (f a)] (as : List α) :
    Composed E P (as.mapM f) := mapM_of fun a _ => hf a

instance (f : α → β → Build (ForInStep β)) [hf : ∀ a b, Composed E P (f a b)] (as : List α)
    (b : β) : Composed E P (forIn as b f) :=
  forIn_of (fun a _ => hf a) b

instance (f : α → Build PUnit) [hf : ∀ a, Composed E P (f a)] (as : List α) :
    Composed E P (as.forM f) := forM_of fun a _ => hf a

/-! ### Notes, names and decorations -/

lemma note {e : Event} (h : e.report? = none) : Composed Quiet P (note e) := .elementary (.note (by simp [h]))

instance : Composed Quiet P fresh := .elementary .fresh

instance (p : Problem) : Composed Quiet P (report p) :=
  .look (f := fun b => Build.note (.problemFound ⟨p, b.span⟩)) (fun _ _ _ _ => rfl) fun _ hb =>
    .elementary (.note fun _ hr => Option.some.inj hr ▸ hb.span)

lemma reportAt {span : Span} (h : P span) (p : Problem) : Composed Quiet P (reportAt span p) :=
  .elementary (.note (e := .problemFound ⟨p, span⟩) fun _ hr => Option.some.inj hr ▸ h)

lemma notes (h : Builder.Notes P
    f := by exact ⟨fun _ => rfl, fun _ _ _ _ => rfl, fun _ hb => ⟨hb.span, hb.reports, hb.deferred⟩⟩)
    (hbody : ∀ b, (f b).body = b.body := by exact fun _ => rfl)
      (hframe : ∀ b, (f b).frame = b.frame := by exact fun _ => rfl) :
    Composed Outside P (modify f : Build Unit) :=
  .elementary (.modify h hbody hframe)

lemma setSpan {span : Span} (h : P span) : Composed Quiet P (setSpan span) := .elementary (.setSpan h)

lemma once {part : Section} {t : Template} (hpart : part ≠ .names) (ht : t.belongs part = true) :
    Composed Quiet P (once part t) :=
  .elementary (.once hpart ht)

instance (target : Nat) (d : Decoration) (ns : List UInt32) :
    Composed Quiet P (decorate target d ns) := .bind (once nofun rfl) inferInstance

instance (target member : Nat) (d : Decoration) (ns : List UInt32) :
    Composed Quiet P (decorateMember target member d ns) :=
  .bind (once nofun rfl) inferInstance

instance (target : Nat) (text : String) : Composed Quiet P (name target text) := .elementary (.name target text)

instance (target member : Nat) (text : String) : Composed Quiet P (nameMember target member text) :=
  .elementary (.nameMember target member text)

instance (id : Nat) (ty : Ty) : Composed Quiet P (relax id ty) := by unfold relax; infer_instance

instance : Composed Outside P (modify fun b => { b with readsInputAttachments := true } : Build Unit) := notes

instance (m : Modifiers) (target : Nat) : Composed Outside P (decorateVariable m target) := by
    unfold decorateVariable; infer_instance

instance (m : Modifiers) (target member : Nat) : Composed Quiet P (decorateField m target member) := by
  unfold decorateField; infer_instance

/-! ### Types and constants -/

lemma global {t : Template} (ht : t.belongs .globals = true) : Composed Quiet P (global t) := once nofun ht

instance (s : Scalar) : Composed Quiet P (scalarType s) := by
  unfold scalarType
  split <;> exact global rfl

instance (s : Scalar) (n : Dim) : Composed Quiet P (vectorType s n) := .bind inferInstance fun _ => global rfl

instance (s : Scalar) (c r : Dim) : Composed Quiet P (matrixType s c r) := .bind inferInstance fun _ => global rfl

instance (i : Int) : Composed Quiet P (intConstant i) := .bind inferInstance fun _ => global rfl

instance (e : Nat) (n : Option Nat) (stride : Nat) : Composed Quiet P (arrayType e n stride) := by
  have hsized (length : Nat) :
      Composed Quiet P (Build.global
        { op := .typeArray, operands := [.id e, .id length], sharing := .keyed stride }) :=
    global (Template.belongs_iff.mpr ⟨rfl, rfl, nofun⟩)
  have hruntime : Composed Quiet P (Build.global
    { op := .typeRuntimeArray, operands := [.id e], sharing := .keyed stride }) :=
    global (Template.belongs_iff.mpr ⟨rfl, rfl, nofun⟩)
  unfold arrayType
  cases n <;> infer_instance

instance (id : Nat) (ids : StructIds) : Composed Outside P
    (modify fun b => { b with structs := b.structs.insert id ids } : Build Unit) := notes

instance (id : Nat) (text : String) (fs : List (Field Ty)) (layout : Option MemoryLayout) :
    Composed Outside P (reusedStruct? id text fs layout) := by
  have hshared (id : Nat) : Composed Quiet P (Build.note (.structShared text id)) := note rfl
  have hadopted (id : Nat) : Composed Quiet P (Build.note (.structAdopted text id)) := note rfl
  refine .look (fun _ _ _ _ => rfl) fun b _ => ?_
  dsimp only
  repeat' first | infer_instance | split

instance (text : String) (fs : List (Field Ty)) (block : Bool) (members : List Nat) :
    Composed Quiet P (newStruct text fs block members) := by
  have hstruct : Composed Quiet P (Build.global
    { op := .typeStruct, operands := Operand.ids members, sharing := .unique }) := global rfl
  unfold newStruct
  infer_instance

instance (struct : Nat) (layout : Option MemoryLayout) (id : Nat) :
    Composed Outside P (rememberStruct struct layout id) := notes

lemma reportMisplacement {f : Field Ty} {m : Misplacement} (hf : P f.span) :
    Composed Quiet P (reportMisplacement f m) := by
  unfold Build.reportMisplacement
  split <;> exact reportAt hf _

lemma placeMember {id i : Nat} {f : Field Ty} {p : Placement} (hf : P f.span) :
    Composed Quiet P (placeMember id i f p) := by
  have (problem : Problem) : Composed Quiet P (Build.reportAt f.span problem) := reportAt hf problem
  have (m : Misplacement) : Composed Quiet P (Build.reportMisplacement f m) := reportMisplacement hf
  unfold Build.placeMember
  dsimp only
  cases p.problem <;> infer_instance

lemma placeMembers {id : Nat} {fs : List (Field Ty)} {layout : Option MemoryLayout} (hfs : ∀ f ∈ fs, P f.span) :
    Composed Quiet P (placeMembers id fs layout) := by
  unfold Build.placeMembers
  split
  · infer_instance
  · refine .bind (forIn_of (fun x hx _ => ?_) _) fun _ => inferInstance
    have hf : x.1.1 ∈ fs := (List.of_mem_zip (List.fst_mem_of_mem_zipIdx hx)).1
    exact .bind (placeMember (hfs _ hf)) inferInstance

mutual
lemma typeIn (layout : Option MemoryLayout) (ty : Ty) (h : ty.Spanned P) :
    Composed Outside P (typeIn layout ty) := by
  cases ty with
  | array e n =>
    have := typeIn layout e (h.nested List.mem_cons_self)
    unfold Build.typeIn
    infer_instance
  | struct id text fields block =>
    have := memberTypes layout fields h.struct
    have (id : Nat) : Composed Quiet P (Build.placeMembers id fields layout) :=
      placeMembers fun f hf => (h.struct f hf).1
    unfold Build.typeIn
    refine .look (fun _ _ _ _ => rfl) fun b _ => ?_
    split
    · infer_instance
    · refine .bind inferInstance fun found => ?_
      cases found <;> infer_instance
  | void => exact @outside _ _ _ (global rfl)
  | _ => unfold Build.typeIn; infer_instance
lemma memberTypes (layout : Option MemoryLayout) (fields : List (Field Ty))
    (h : ∀ f ∈ fields, P f.span ∧ f.ty.Spanned P) :
    Composed Outside P (memberTypes layout fields) := by
  cases fields with
  | nil => unfold Build.memberTypes; infer_instance
  | cons f fields =>
    obtain ⟨text, ty, m, span⟩ := f
    rw [List.forall_mem_cons] at h
    have := setSpan h.1.1
    have := typeIn layout ty h.1.2
    have := memberTypes layout fields h.2
    unfold Build.memberTypes
    infer_instance
end

instance (layout : Option MemoryLayout) (ty : Ty) [h : ty.Spanned P] :
    Composed Outside P (Build.typeIn layout ty) := typeIn layout ty h

instance (ty : Ty) [ty.Spanned P] : Composed Outside P (typeOf ty) := by unfold typeOf; infer_instance

instance (type : Nat) (storage : StorageClass) : Composed Quiet P (pointerType type storage) := global rfl

lemma functionType {f : Function} (hreturns : f.returns.Spanned P)
    (hparameters : ∀ p ∈ f.parameters, p.ty.Spanned P) :
    Composed Outside P (functionType f) := by
  refine .bind inferInstance fun _ => .bind (mapM_of fun p hp => ?_) fun _ => @outside _ _ _ (global rfl)
  have := hparameters p hp
  infer_instance

instance (v : Literal) (ty : Ty) [ty.Spanned P] : Composed Outside P (constant v ty) := by
  refine .bind inferInstance fun _ => ?_
  split <;> exact @outside _ _ _ (global rfl)

instance (ty : Ty) (parts : List Nat) [ty.Spanned P] : Composed Outside P (constantComposite ty parts) :=
  .bind inferInstance fun _ => @outside _ _ _ (global rfl)

instance (i : Int) (ty : Ty) [ty.Spanned P] : Composed Outside P (splatConstant i ty) := by
  unfold splatConstant
  refine .bind inferInstance fun _ => ?_
  split <;> infer_instance

/-! Nothing has to be known where no demand is made on places. -/

instance (e : Event) : Composed Quiet Span.Anywhere (Build.note e) := .elementary (.note fun _ _ => trivial)

instance (span : Span) : Composed Quiet Span.Anywhere (Build.setSpan span) := setSpan trivial

instance (span : Span) (p : Problem) : Composed Quiet Span.Anywhere (Build.reportAt span p) := reportAt trivial p

instance (f : Field Ty) (m : Misplacement) : Composed Quiet Span.Anywhere
    (Build.reportMisplacement f m) := reportMisplacement trivial

instance (id i : Nat) (f : Field Ty) (p : Placement) :
    Composed Quiet Span.Anywhere (Build.placeMember id i f p) := placeMember trivial

instance (id : Nat) (fields : List (Field Ty)) (layout : Option MemoryLayout) :
    Composed Quiet Span.Anywhere (Build.placeMembers id fields layout) :=
  placeMembers fun _ _ => trivial

instance (layout : Option MemoryLayout) (fields : List (Field Ty)) :
    Composed Outside Span.Anywhere (Build.memberTypes layout fields) :=
  memberTypes layout fields fun _ _ => ⟨trivial, inferInstance⟩

instance (f : Function) : Composed Outside Span.Anywhere (Build.functionType f) :=
    functionType inferInstance fun _ _ => inferInstance

end Composed

/-! ### Outside of functions -/

section

variable {α : Type}

/-- What is written once changes neither the function nor the table of structs. -/
lemma once_body {part : Section} {t : Template} (h : t.sharing ≠ .noResult → part = .globals)
    (s : Setting) (b : Builder) :
    (once part t s b).2.body = b.body ∧ (once part t s b).2.structs = b.structs := by
  rw [once_eq]
  cases b.ids[t]? with
  | some id => exact ⟨rfl, rfl⟩
  | none =>
    change (write part t s b).2.body = b.body ∧ (write part t s b).2.structs = b.structs
    by_cases hresult : t.sharing = .noResult
    · rw [write_note hresult]
      cases part <;> exact ⟨rfl, rfl⟩
    · obtain rfl := h hresult
      rw [write_eq hresult]
      exact ⟨rfl, rfl⟩

variable {m : Build α}

lemma Quiet.body_eq (h : Quiet P α m) (s : Setting) (b : Builder) : (m s b).2.body = b.body ∧
    (m s b).2.structs = b.structs := by
  have hnamed (p : Setting → Bool) {t : Template} (ht : t.sharing = .noResult) :
      let b' := ((do if p (← read) then let _ ← Build.once .names t : Build Unit) s b).2
      b'.body = b.body ∧ b'.structs = b.structs := by
    intro b'
    change ((if p s then Build.once .names t >>= fun _ => pure () else pure () : Build Unit) s b).2.body = b.body ∧
      ((if p s then Build.once .names t >>= fun _ => pure () else pure () : Build Unit) s b).2.structs = b.structs
    split
    · exact once_body (absurd ht) s b
    · exact ⟨rfl, rfl⟩
  cases h with
  | note | fresh | setSpan => exact ⟨rfl, rfl⟩
  | once hpart ht => exact once_body (Template.eq_globals_of_belongs ht) s b
  | name target text => exact hnamed (fun s => s.program.options.emitNames && !text.isEmpty) rfl
  | nameMember target member text => exact hnamed (fun s => s.program.options.emitNames) rfl

lemma Outside.body_eq (h : Outside P α m) (s : Setting) (b : Builder) : (m s b).2.body = b.body := by
  cases h with
  | quiet h => exact (h.body_eq s b).1
  | declare => rfl
  | modify h hbody hframe => exact hbody b

lemma Composed.structs_eq (m : Build α) [h : Composed Quiet Span.Anywhere m] (s : Setting)
    (b : Builder) : (m s b).2.structs = b.structs := by
  induction h generalizing b with
  | elementary h => exact (h.body_eq s b).2
  | pure a => rfl
  | bind_of _ hQ _ ihm ihf => exact (ihf _ (hQ s b inferInstance) _).trans (ihm b)
  | ask _ _ ih => exact ih s inferInstance b
  | look _ _ ih => exact ih b b.spanned_anywhere b

/-- What is written outside of functions leaves the function that is being written as it is. -/
lemma Composed.body_eq (m : Build α) [h : Composed Outside Span.Anywhere m] (s : Setting)
    (b : Builder) : (m s b).2.body = b.body := by
  induction h generalizing b with
  | elementary h => exact h.body_eq s b
  | pure a => rfl
  | bind_of _ hQ _ ihm ihf => exact (ihf _ (hQ s b inferInstance) _).trans (ihm b)
  | ask _ _ ih => exact ih s inferInstance b
  | look _ _ ih => exact ih b b.spanned_anywhere b

lemma Quiet.isStraight (h : Quiet P α m) : IsStraight m := by
  cases h with
  | note | fresh => infer_instance
  | setSpan => exact .of_modify fun _ => .of_eq rfl List.suffix_rfl rfl rfl rfl rfl rfl rfl rfl rfl
  | @once part t hpart ht =>
    have hsection := Template.section?_of_belongs ht
    cases part with
    | names => exact absurd rfl hpart
    | decorations =>
      exact .note_ nofun ((Template.noResult_of_belongs ht).mpr nofun) (Op.isNote_of_section? hsection)
    | globals =>
      exact .global (fun hresult => (Template.noResult_of_belongs ht).mp hresult rfl)
        (Op.isDeclaration_of_section? hsection)
  | name target text => exact .named rfl rfl
  | nameMember target member text => exact .named rfl rfl

lemma Outside.isStraight (h : Outside P α m) : IsStraight m := by
  cases h with
  | quiet h => exact h.isStraight
  | declare type operands => exact ⟨fun s b => .global rfl rfl (.grow [_] rfl rfl rfl (Nat.le_succ _) (by simp))⟩
  | modify h hbody hframe => exact .of_modify fun b => h.straight (hframe b)

lemma Composed.isStraight_of {E : (Span → Prop) → (α : Type) → Build α → Prop}
    (hE : ∀ {α : Type} {m : Build α}, E Span.Anywhere α m → IsStraight m)
    (h : Composed E Span.Anywhere m) : IsStraight m := by
  induction h with
  | elementary h => exact hE h
  | pure a => infer_instance
  | bind_of _ hQ _ ihm ihf =>
    exact ⟨fun s b => (ihm.straight s b).trans ((ihf _ (hQ s b inferInstance)).straight s _)⟩
  | ask _ _ ih => exact ⟨fun s => (ih s inferInstance).straight s⟩
  | look _ _ ih => exact ⟨fun s b => (ih b b.spanned_anywhere).straight s b⟩

namespace IsStraight

variable {op : Op} {ty : Ty} {operands : List Operand}

lemma result (h : Instruction.isPlain { op } = true) : IsStraight (result op ty operands) := by
  refine @bind _ _ _ _ (Composed.isStraight_of (E := Outside) Outside.isStraight inferInstance)
    fun type => ⟨fun s b => ?_⟩
  have hrelax : IsStraight (relax b.next ty) :=
    Composed.isStraight_of (E := Outside) Outside.isStraight inferInstance
  exact .code (hrelax.straight s { b with next := b.next + 1 }) rfl h

lemma apply {values : List Nat} (h : Instruction.isPlain { op } = true) :
    IsStraight (apply op ty values) := result h

lemma localVariable : IsStraight (localVariable ty) := by
  have hstraight {γ : Type} {m : Build γ} (h : Composed Outside Span.Anywhere m) : IsStraight m :=
    h.isStraight_of Outside.isStraight
  refine @bind _ _ _ _ (hstraight inferInstance) fun type =>
    @bind _ _ _ _ (hstraight inferInstance) fun pointer => ⟨fun s b => ?_⟩
  let i : Instruction :=
    { op := .variable_, type := pointer, result := b.next, operands := [.number StorageClass.function.code] }
  have hlocal := Builder.Straight.local_ (b := b) (i := i) rfl rfl
  exact hlocal.trans ((hstraight (m := relax b.next ty) inferInstance).straight s _)

end IsStraight

lemma Plain.isStraight (h : Plain P α m) : IsStraight m := by
  cases h with
  | outside h => exact h.isStraight
  | compute h => exact .compute (Op.isPlain_of_isCode h)
  | result h hty => exact .result (Op.isPlain_of_isCode h)
  | emit h => exact .emit (Op.isPlain_of_isCode h)
  | localVariable hty => exact .localVariable

instance (priority := low) (m : Build α) [h : Composed Plain Span.Anywhere m] : IsStraight m :=
    h.isStraight_of Plain.isStraight

end

namespace Composed

variable {α : Type} {P : Span → Prop}

/-! ### Values -/

section

variable {op : Op} {type : Nat} {operands : List Operand} {values : List Nat} {ty : Ty}

lemma emit (h : op.isCode = true) : Composed Plain P (emit op operands) := .elementary (.emit h)

lemma compute (h : op.isCode = true) : Composed Plain P (compute op type operands) := .elementary (.compute h)

lemma result [hty : ty.Spanned P] (h : op.isCode = true) :
    Composed Plain P (result op ty operands) := .elementary (.result h hty)

lemma apply [ty.Spanned P] (h : op.isCode = true) : Composed Plain P (apply op ty values) := result h

end

section

variable {ty : Ty} [hty : ty.Spanned P]

instance (ids : List Nat) : Composed Outside P (areConstants ids) := .look (fun _ _ _ _ => rfl) fun _ _ => .pure _

instance (type value : Nat) (indices : List Nat) : Composed Plain P (extractAs type value indices) := by
  refine .look (fun _ _ _ _ => rfl) fun b _ => ?_
  split
  · infer_instance
  · exact compute rfl

instance (value : Nat) (indices : List Nat) : Composed Plain P (extract ty value indices) := by
    unfold extract; infer_instance

instance (parts : List Nat) : Composed Plain P (composite ty parts) := by
  have : Composed Plain P (Build.apply .compositeConstruct ty parts) := apply rfl
  unfold composite
  infer_instance

instance (value : Nat) : Composed Plain P (splat value ty) := by unfold splat; infer_instance

instance (value : Nat) (u : Ty) : Composed Plain P (scalars value u) := by unfold scalars; split <;> infer_instance

instance (value : Nat) (mask : List (Fin 4)) : Composed Plain P (swizzle value mask ty) := by
  unfold swizzle
  split
  · infer_instance
  · exact result rfl

instance (column : Nat → Build Nat) [∀ c, Composed Plain P (column c)] :
    Composed Plain P (byColumns ty column) := by
  unfold byColumns; infer_instance

/-- What is done column by column, or with the whole value if there are no columns. -/
lemma columns {whole : Build α} {byColumn : Ty → Build α} [hwhole : Composed Plain P whole]
    (hcolumn : ∀ (column : Ty) [column.Spanned P], Composed Plain P (byColumn column)) (ty : Ty) :
    Composed Plain P (match ty.column? with
      | some column => byColumn column
      | none => whole) := by
  cases h : ty.column? with
  | none => exact hwhole
  | some column =>
    have := Ty.spanned_column (P := P) h
    exact hcolumn column

instance (entry : Nat → Nat → Nat) : Composed Plain P (matrixOf ty entry) := by
  unfold matrixOf
  cases h : ty.column? with
  | none => infer_instance
  | some column =>
    have := Ty.spanned_column (P := P) h
    infer_instance

end

end Composed
end Build
end Shading.Spirv
