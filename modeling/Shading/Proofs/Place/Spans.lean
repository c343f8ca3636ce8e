import Shading.Proofs.Glsl.Style
import Shading.Proofs.Place.Module
import Shading.Proofs.Place.Program
import Shading.Proofs.Typing.Known
import Shading.Proofs.Typing.Soundness

/-! The spans of a program and of everything that is reported about it are parts of its source, and
the spans of the parts of a program lie inside each other as the parts do. -/
namespace Shading

/-! ### The tree of a program -/

/-- A node of the tree that a program is. -/
inductive Node where
  | declaration (e : Element)
  | statement (s : Stmt)
  | case (c : SwitchCase Stmt)
  | expression (e : Expr)

namespace Node

def span : Node → Span
  | declaration e => e.span
  | statement s => s.span
  | case c => c.span
  | expression e => e.span

/-- The nodes right below a node. The statements of a switch stand below its cases. -/
def children : Node → List Node
  | declaration (.global _ e _) => e.toList.map expression
  | declaration (.definition _ _ body _) => [statement body]
  | declaration (.struct ..) | declaration (.block ..) | declaration (.prototype ..) => []
  | statement (.switch e cases _) => expression e :: cases.map case
  | statement s => s.exprs.map expression ++ s.parts.map statement
  | case c => c.body.map statement
  | expression e => e.parts.map expression

/-- Everything from the node on down stands in the source. -/
def LiesIn (source : String) : Node → Prop
  | declaration e => e.LiesIn (.ofSource source)
  | statement s => s.LiesIn (.ofSource source)
  | case c => c.span.Within source ∧ ∀ s ∈ c.body, c.span.contains s.span = true ∧ s.LiesIn (.ofSource source)
  | expression e => e.LiesIn (.ofSource source)

variable {source : String} {n c : Node}

lemma LiesIn.within (h : n.LiesIn source) : n.span.Within source := by
  cases n with
  | declaration e =>
    cases e with
    | struct | block | prototype => exact h
    | global | definition => exact h.1
  | statement s => exact (Stmt.liesIn_iff.mp h).1.within
  | case c => exact h.1
  | expression e => exact Expr.LiesIn.within h

lemma LiesIn.child (h : n.LiesIn source) (hc : c ∈ n.children) : c.LiesIn source ∧
    n.span.contains c.span = true := by
  have hexprs {s : Stmt} (hs : s.LiesIn (.ofSource source)) {e : Expr} (he : e ∈ s.exprs) :
      e.LiesIn (.ofSource source) ∧ s.span.contains e.span = true :=
    have hinside := (Stmt.liesIn_iff.mp hs).1.exprs e he
    ⟨hinside.liesIn, hinside.contains⟩
  cases n with
  | declaration e =>
    cases e with
    | struct | block | prototype => cases hc
    | global n init span =>
      obtain ⟨e, he, rfl⟩ := List.mem_map.mp hc
      obtain ⟨hliesIn, hcontains⟩ := h.2 e (Option.mem_toList.mp he)
      exact ⟨hliesIn, hcontains⟩
    | definition f ps body span =>
      obtain rfl := List.mem_singleton.mp hc
      exact h.2
  | statement s =>
    obtain ⟨hstands, hparts⟩ := Stmt.liesIn_iff.mp h
    have hrest (hc : c ∈ s.exprs.map expression ++ s.parts.map statement) : c.LiesIn source ∧
      s.span.contains c.span = true := by
      obtain hc | hc := List.mem_append.mp hc
      · obtain ⟨e, he, rfl⟩ := List.mem_map.mp hc
        exact hexprs h he
      · obtain ⟨x, hx, rfl⟩ := List.mem_map.mp hc
        exact ⟨hparts x hx, hstands.around x hx⟩
    cases s with
    | switch e cases span =>
      obtain rfl | hc := List.mem_cons.mp hc
      · exact hexprs h List.mem_cons_self
      · obtain ⟨case, hcase, rfl⟩ := List.mem_map.mp hc
        obtain ⟨hwithin, hcontains, hbody⟩ := hstands.cases case hcase
        exact ⟨⟨hwithin, fun x hx => ⟨hbody x hx, hparts x (List.mem_flatMap.mpr ⟨case, hcase, hx⟩)⟩⟩, hcontains⟩
    | _ => exact hrest hc
  | case case =>
    obtain ⟨x, hx, rfl⟩ := List.mem_map.mp hc
    exact ⟨(h.2 x hx).2, (h.2 x hx).1⟩
  | expression e =>
    obtain ⟨x, hx, rfl⟩ := List.mem_map.mp hc
    exact ⟨Expr.LiesIn.part h hx, (Expr.liesIn_iff.mp h).1.around x hx⟩

end Node

/-- The node is one of the program's. -/
def Program.Has (p : Program) (n : Node) : Prop :=
    ∃ e ∈ p.elements, Relation.ReflTransGen (fun a b => b ∈ a.children) (.declaration e) n

/-- The diagnostics that a compilation ends with. -/
def Compilation.reported {α : Type} (c : Compilation α) : List Diagnostic :=
  match c.result with
  | .error e => (e.diagnostics?.getD #[]).toList
  | .ok _ => []

lemma Compilation.within_reported {α : Type} {c : Compilation α} {source : String}
    (h : ∀ ds, c.result = .error (.failed ds) → ∀ d ∈ ds, d.span.Within source) : ∀ d ∈ c.reported,
    d.span.Within source := by
  intro d hd
  unfold reported at hd
  split at hd
  · rename_i e heq
    cases e with
    | failed ds => exact h ds heq d (Array.mem_toList_iff.mp hd)
    | sourceTooLarge | tooManyWords => cases hd
  · cases hd

lemma Journal.within_diagnostics {j : Journal} {source : String}
    (h : ∀ r, .problemFound r ∈ j → r.span.Within source) :
    ∀ d ∈ j.diagnostics, d.span.Within source := by
  intro d hd
  obtain ⟨r, hr, rfl⟩ := mem_diagnostics.mp hd
  exact h r (mem_reports.mp hr)

namespace Program

variable {source : String} {kind : ShaderKind} {options : CompileOptions} {p : Program}

lemma placed_finish (source : String) (kind : ShaderKind) (options : CompileOptions) :
    (Grammar.finish source kind options).context.Placed (.standing source) :=
  (Grammar.placed_finish trivial (List.forall_mem_nil _)).context

lemma liesIn_of_has (h : (Program.parse source kind options).result = .ok p) {n : Node}
    (hn : p.Has n) : n.LiesIn source := by
  obtain ⟨e, he, hpath⟩ := hn
  induction hpath with
  | refl => exact elements_liesIn h e he
  | tail _ hc ih => exact (ih.child hc).1

lemma nodes_stand (h : (Program.parse source kind options).result = .ok p) : ∀ e ∈ p.nodes,
    e.Stands (.ofSource source) := by
  intro e he
  obtain ⟨x, hx, he⟩ := List.mem_flatMap.mp he
  have hin := elements_liesIn h x hx
  cases x with
  | struct | block | prototype => cases he
  | global n init span =>
    obtain ⟨root, hroot, he⟩ := List.mem_flatMap.mp he
    exact (hin.2 root (Option.mem_toList.mp hroot)).liesIn e he
  | definition f ps body span =>
    obtain ⟨s, hs, he⟩ := List.mem_flatMap.mp he
    obtain ⟨root, hroot, he⟩ := List.mem_flatMap.mp he
    exact ((hin.2.1 s hs).exprs root hroot).liesIn e he

lemma within_of_known (h : (Program.parse source kind options).result = .ok p) {o : Context}
    (hp : p.Regular o) {ty : Ty}
    (hty : ty.Known o) : ∀ u ∈ ty.nested, u.Within source := by
  intro u hu fields hfields
  have hu := hty.nested hu
  cases u with
  | struct id name fs block =>
    have hget : p.types.get? id = some (.struct id name fs block) := hp.types ▸ hu.1
    obtain ⟨-, rfl⟩ := isRead_of_parse h
    exact (placed_finish source kind options).types id _ hget fields hfields
  | _ => cases hfields

/-! ### Generators -/

lemma spanned_of_mem_signatures {P : Span → Prop} {f : Function} (hf : f ∈ Intrinsic.signatures) :
    ∀ ty ∈ f.returns :: f.parameterTypes, ty.Spanned P := by
  have hflat : ∀ f ∈ Intrinsic.signatures, ∀ ty ∈ f.returns :: f.parameterTypes,
    ty.parts.isEmpty = true ∧ ty.fields?.isNone = true := by
    decide
  intro ty hty
  obtain ⟨hparts, hfields⟩ := hflat f hf ty hty
  exact Ty.spanned_flat (List.isEmpty_iff.mp hparts) (Option.isNone_iff_eq_none.mp hfields)

lemma spanned_of_parse (h : (Program.parse source kind options).result = .ok p) :
    p.Spanned (Span.Within source) := by
  obtain ⟨o, hp⟩ := exists_regular_of_parse h
  have hs := sound_of_parse h
  have hknown {ty : Ty} (hty : ty.Known o) : ty.Spanned (Span.Within source) :=
    ⟨fun u hu fields hfields f hf => (within_of_known h hp hty u hu fields hfields f hf).1⟩
  have hexpr {e : Expr} (hnodes : ∀ x ∈ e.nodes, x ∈ p.nodes) : e.Spanned (Span.Within source) := ⟨fun x hx =>
    ⟨(nodes_stand h x (hnodes x hx)).within, hknown
      (hp.known_of_mem_usedTypes hs (List.mem_append_right _ (List.mem_map_of_mem (hnodes x hx))))⟩⟩
  refine ⟨fun n => ?_, fun n => ?_, fun x hx => ?_⟩
  · unfold variableAt
    rw [Array.getD_eq_getD_getElem?]
    cases hv : p.variables[n]? with
    | none => exact Ty.spanned_flat rfl rfl
    | some v => exact hknown (hp.of_mem_variables (Array.mem_of_getElem? hv)).known
  · unfold functionAt
    cases hf : p.functions.get? n with
    | none => exact ⟨Ty.spanned_flat rfl rfl, nofun⟩
    | some f =>
      have htypes : ∀ ty ∈ f.returns :: f.parameterTypes, ty.Spanned (Span.Within source) := by
        obtain hf | hf := Arena.mem_of_get? hf
        · exact spanned_of_mem_signatures (List.mem_toArray.mp (hs.base ▸ hf))
        · exact fun ty hty => hknown (hp.known_of_mem_usedTypes hs (by simp [usedTypes]; grind))
      exact ⟨htypes _ List.mem_cons_self, fun q hq => htypes _ (List.mem_cons_of_mem _ (List.mem_map_of_mem hq))⟩
  · have hin := elements_liesIn h x hx
    have hnodes : ∀ y ∈ x.nodes, y ∈ p.nodes := fun y hy => List.mem_flatMap.mpr ⟨x, hx, hy⟩
    cases x with
    | struct ty span => exact ⟨hin, hknown (hp.elements _ hx).1⟩
    | block | prototype => exact hin
    | global n init span =>
      refine ⟨hin.1, fun e he => hexpr fun y hy => hnodes y ?_⟩
      exact List.mem_flatMap.mpr ⟨e, Option.mem_toList.mpr he, hy⟩
    | definition f ps body span =>
      refine ⟨hin.1, ⟨fun s hs => ⟨(hin.2.1 s hs).within, fun e he => hexpr fun y hy => hnodes y ?_⟩⟩⟩
      exact List.mem_flatMap.mpr ⟨s, hs, List.mem_flatMap.mpr ⟨e, he, hy⟩⟩

lemma reported_toSpirv (h : (Program.parse source kind options).result = .ok p) (version : SpirvVersion) :
    ∀ d ∈ (p.toSpirv version).reported, d.span.Within source := by
  have := spanned_of_parse h
  have hstart : (Span.point 0).Within source := ⟨le_rfl, String.Pos.Raw.isValid_zero, String.Pos.Raw.isValid_zero⟩
  have hreports := (spanned_written (p := p) hstart version).reports
  refine Compilation.within_reported fun ds hds => ?_
  rw [result_toSpirv] at hds
  split at hds
  · cases hds
    exact Journal.within_diagnostics hreports
  · split at hds <;> cases hds

lemma reported_toGlsl (h : (Program.parse source kind options).result = .ok p) (api : TargetApi)
    (version : GlslVersion) :
    ∀ d ∈ (p.toGlsl api version).reported, d.span.Within source := by
  have hproblems : ∀ r ∈ (Glsl.pieces ⟨p, api, version⟩).filterMap Glsl.Piece.report?, r.span.Within source := by
    intro r hr
    obtain ⟨o, hp⟩ := exists_regular_of_parse h
    obtain ⟨-, hplaces, -⟩ := @Glsl.spells_pieces ⟨p, api, version⟩ options o hp (sound_of_parse h)
    obtain ⟨e, he, hspan⟩ := hplaces r hr
    exact hspan ▸ (nodes_stand h e he).within
  refine Compilation.within_reported fun ds hds => ?_
  unfold toGlsl at hds
  dsimp only at hds
  split at hds
  · cases hds
  · cases hds
    refine Journal.within_diagnostics fun r hr => hproblems r ?_
    obtain hr | hr := List.mem_append.mp hr
    · obtain ⟨q, hq, heq⟩ := List.mem_map.mp (List.mem_reverse.mp hr)
      cases heq
      exact hq
    · cases List.mem_singleton.mp hr

/-- The tree of a program stands in the source: the spans of all nodes are parts of it, and the span
of a node goes around the spans of the nodes below it. The spans of what the program declares and of
the members of its types are parts of the source too. -/
structure StandsIn (source : String) (p : Program) : Prop where
  within : ∀ n, p.Has n → n.span.Within source
  nested : ∀ n, p.Has n → ∀ c ∈ n.children, n.span.contains c.span = true
  types : ∀ n ty, p.types.get? n = some ty → ty.Within source
  usedTypes : ∀ ty ∈ p.usedTypes, ∀ u ∈ ty.nested, u.Within source
  «variables» : ∀ v ∈ p.variables, v.Within source
  functions : ∀ f ∈ p.functions.items, f.Within source

lemma standsIn_of_parse (h : (Program.parse source kind options).result = .ok p) : p.StandsIn source := by
  obtain ⟨o, hp⟩ := exists_regular_of_parse h
  have hs := sound_of_parse h
  have hplaced := placed_finish source kind options
  have hnodes {n : Node} (hn : p.Has n) : n.LiesIn source := liesIn_of_has h hn
  have hused : ∀ ty ∈ p.usedTypes, ∀ u ∈ ty.nested, u.Within source := fun ty hty =>
    within_of_known h hp (hp.known_of_mem_usedTypes hs hty)
  obtain ⟨-, rfl⟩ := isRead_of_parse h
  exact ⟨fun n hn => (hnodes hn).within, fun n hn c hc => ((hnodes hn).child hc).2, hplaced.types,
    hused, hplaced.variables, hplaced.functions⟩

/-- Whatever a source is, the diagnostics that reading it ends with have spans that are parts of it,
cut between characters. If it is accepted, so have all nodes of the program, its declarations and
the members of its types; the span of a node goes around the spans of the nodes below it; and
whatever is reported when the program is written as SPIR-V or as GLSL stands in the source too. -/
theorem spans_in_source (source : String) (kind : ShaderKind) (options : CompileOptions) :
    (∀ d ∈ (Program.parse source kind options).reported, d.span.Within source) ∧
    ∀ p, (Program.parse source kind options).result = .ok p → p.StandsIn source ∧
      (∀ version, ∀ d ∈ (p.toSpirv version).reported, d.span.Within source) ∧
      ∀ api version, ∀ d ∈ (p.toGlsl api version).reported, d.span.Within source := by
  refine ⟨Compilation.within_reported fun ds hds => ?_, fun p hp =>
    ⟨standsIn_of_parse hp, reported_toSpirv hp, reported_toGlsl hp⟩⟩
  have herror := parse_result_eq_error_iff.mp hds
  split at herror
  · cases herror
  · cases herror.2
    exact Journal.within_diagnostics (placed_finish source kind options).reports

/-- A program that has no module, after a character of two bytes. -/
theorem spans_in_source_uniform : ∃ p, (Program.parse
      "/* é */ uniform int u; void main() \x7b int x = (u * (2)); if (x > 1) \x7b x = 1; \x7d else x--; switch (x) \x7b case 1: break; \x7d \x7d"
      .fragment {}).result = .ok p ∧
    p.statements.map (fun s => (s.span.start, s.span.stop)) =
      [(36, 120), (38, 56), (57, 88), (68, 78), (70, 76), (84, 88), (89, 118), (110, 116)] ∧
    (p.toSpirv .v10).reported.map (fun d => (d.span.start, d.span.stop)) = [(9, 23), (38, 56)] ∧
    p.StandsIn
      "/* é */ uniform int u; void main() \x7b int x = (u * (2)); if (x > 1) \x7b x = 1; \x7d else x--; switch (x) \x7b case 1: break; \x7d \x7d" := by
  have hread : ∃ p, (Program.parse
      "/* é */ uniform int u; void main() \x7b int x = (u * (2)); if (x > 1) \x7b x = 1; \x7d else x--; switch (x) \x7b case 1: break; \x7d \x7d"
      .fragment {}).result = .ok p ∧ (p.statements.map (fun s => (s.span.start, s.span.stop)),
        (p.toSpirv .v10).reported.map (fun d => (d.span.start, d.span.stop))) =
        ([(36, 120), (38, 56), (57, 88), (68, 78), (70, 76), (84, 88), (89, 118), (110, 116)],
          [(9, 23), (38, 56)]) :=
    exists_ok_of_map (by decide +kernel)
  obtain ⟨p, hp, hspans⟩ := hread
  obtain ⟨hstatements, hreported⟩ := Prod.mk.inj hspans
  exact ⟨p, hp, hstatements, hreported, ((spans_in_source _ _ _).2 p hp).1⟩

end Program
end Shading
